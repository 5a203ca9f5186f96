import DjApp.Client.SoundStates

/-! The local catalogue: every manifest entry is checked before it is listed, by a test of
its id that is not quite the wire's. -/

set_option autoImplicit false

namespace DjApp.Client

open Library
open Library.BinaryRounding (double)

structure TrackMetadata where
  id : String
  title : String
  fileName : String
  durationSeconds : ℚ := 0
  bpm : Option ℚ := none
  deriving DecidableEq

/-- What the header of an audio file says. -/
structure AudioFormatReader where
  sampleRate : ℚ
  lengthInSamples : ℤ

/-- A directory as the catalogue sees it: its files by their names. -/
structure RootDir where
  -- The parsed text of `manifest.json`, when there is one.
  manifest : Option Var
  isAChildOf : String → Bool
  isSymbolicLink : String → Bool
  createReaderFor : String → Option AudioFormatReader

namespace LocalFileRepository

/-- The characters and the length alone: no rule about dots. -/
def isValidTrackId (s : String) : Bool :=
  if s.toList.isEmpty || 64 < s.toList.length then false
  else s.toList.all trackIdCharacters.contains

def isBareFilename (s : String) : Bool :=
  if s.toList.isEmpty then false
  else !s.toList.contains '/' && !s.toList.contains (Char.ofNat 0x5C) && !containsDotDot s.toList

def isSafeToOpen (rootDir : RootDir) (file : String) : Bool :=
  rootDir.isAChildOf file && !rootDir.isSymbolicLink file

/-- A tempo of the manifest counts only if it is finite and positive. -/
def bpmOf (fields : Properties) : Option ℚ :=
  match getProperty fields "bpm" with
  | .num (.finite value) => if 0 < double value then some (double value) else none
  | _ => none

def durationOf (reader : AudioFormatReader) : ℚ :=
  if 0 < reader.sampleRate then double (double reader.lengthInSamples / reader.sampleRate) else 0

def parseEntry (rootDir : RootDir) : Var → Option TrackMetadata
  | .obj fields =>
      match getProperty fields "id" with
      | .str id =>
          if isValidTrackId id then
            match getProperty fields "title", getProperty fields "file" with
            | .str title, .str fileName =>
                if isBareFilename fileName && isSafeToOpen rootDir fileName then
                  (rootDir.createReaderFor fileName).map fun reader =>
                    { id, title, fileName, durationSeconds := durationOf reader, bpm := bpmOf fields }
                else none
            | _, _ => none
          else none
      | _ => none
  | _ => none

/-- A manifest that is missing or malformed has no entries. -/
def manifestEntries (rootDir : RootDir) : List Var :=
  match rootDir.manifest with
  | some (.obj fields) =>
      match fields.lookup "tracks" with
      | some (.arr entries) => entries
      | _ => []
  | _ => []

def loadManifest (rootDir : RootDir) : List TrackMetadata :=
  (manifestEntries rootDir).filterMap (parseEntry rootDir)

def listAvailableTracks (rootDir : RootDir) : List TrackMetadata := loadManifest rootDir

end LocalFileRepository

/-- The wire takes a track: both codecs its id, the server the delta that loads it, and
every peer what the server then relays. -/
structure PublishableTrack (trackId : String) : Prop where
  codec : parseTrackId (.str trackId) = .ok trackId
  server : Server.validateTrackId (.str (js trackId)) = .ok (some (js trackId))
  accepted : ∀ deck digits, (ClientMessage.delta (loadTrackDelta deck trackId)).Exact digits →
    Server.validateDelta ((ClientMessage.delta (loadTrackDelta deck trackId)).toJs digits) =
      .ok (deck, (loadTrackDelta deck trackId).toChanges)
  applied : ∀ serverSeq source deck,
    parseDeltaMessage (Server.Frame.delta serverSeq source deck
      (loadTrackDelta deck trackId).toChanges).toVar = .ok (loadTrackDelta deck trackId)

/-- An id that no path resolves upwards. -/
def DotFree (trackId : String) : Prop := trackId ≠ "." ∧ containsDotDot trackId.toList = false

instance (trackId : String) : Decidable (DotFree trackId) :=
  inferInstanceAs (Decidable (_ ∧ _))

namespace LocalFileRepository

/-- The two tests of the client differ by the rule about dots. -/
theorem isValidTrackId_iff (s : String) :
    Client.isValidTrackId s = true ↔ isValidTrackId s = true ∧ DotFree s := by
  have dots : s = ".." → containsDotDot s.toList = true := by
    rintro rfl
    decide
  unfold Client.isValidTrackId isValidTrackId DotFree
  split
  · simp
  · split
    · rename_i foreign
      simp only [Bool.not_eq_true'] at foreign
      simp [foreign]
    · rename_i contained
      simp only [Bool.not_eq_true', Bool.not_eq_false] at contained
      simp only [contained, true_and, Bool.not_eq_true', Bool.or_eq_false_iff,
        decide_eq_false_iff_not]
      constructor
      · rintro ⟨⟨notDot, _⟩, none⟩
        exact ⟨notDot, none⟩
      · rintro ⟨notDot, none⟩
        refine ⟨⟨notDot, ?_⟩, none⟩
        intro both
        rw [dots both] at none
        cases none

/-- The rest of an entry is in order: it has a title, and its file opens. -/
structure Opens (rootDir : RootDir) (fields : Properties) : Prop where
  title : ∃ title, getProperty fields "title" = .str title
  file : ∃ fileName, getProperty fields "file" = .str fileName ∧ isBareFilename fileName = true ∧
    isSafeToOpen rootDir fileName = true ∧ (rootDir.createReaderFor fileName).isSome = true

theorem parseEntry_obj_iff {rootDir : RootDir} {fields : Properties} {id : String} :
    (∃ track, parseEntry rootDir (.obj fields) = some track ∧ track.id = id) ↔
      getProperty fields "id" = .str id ∧ isValidTrackId id = true ∧ Opens rootDir fields := by
  simp only [parseEntry]
  constructor
  · rintro ⟨track, parsed, rfl⟩
    split at parsed
    · rename_i text named
      split at parsed
      · rename_i valid
        split at parsed
        · rename_i title fileName titled filed
          split at parsed
          · rename_i checked
            obtain ⟨reader, opened, rfl⟩ := Option.map_eq_some_iff.mp parsed
            obtain ⟨bare, safe⟩ := Bool.and_eq_true_iff.mp checked
            exact ⟨named, valid, ⟨title, titled⟩, fileName, filed, bare, safe, by simp [opened]⟩
          · cases parsed
        · cases parsed
      · cases parsed
    · cases parsed
  · rintro ⟨named, valid, ⟨title, titled⟩, fileName, filed, bare, safe, opened⟩
    obtain ⟨reader, opened⟩ := Option.isSome_iff_exists.mp opened
    simp only [named, valid, titled, filed, bare, safe, opened, Bool.and_self, ↓reduceIte,
      Option.map_some, Option.some.injEq, exists_eq_left']

theorem parseEntry_some {rootDir : RootDir} {entry : Var} {track : TrackMetadata}
    (parsed : parseEntry rootDir entry = some track) : ∃ fields, entry = .obj fields := by
  cases entry with
  | obj fields => exact ⟨fields, rfl⟩
  | null | bool | num | str | arr => cases parsed

/-- The ids that are listed, read off the manifest. -/
theorem exists_mem_loadManifest_iff {rootDir : RootDir} {id : String} :
    (∃ track ∈ loadManifest rootDir, track.id = id) ↔
      ∃ fields, .obj fields ∈ manifestEntries rootDir ∧ getProperty fields "id" = .str id ∧
        isValidTrackId id = true ∧ Opens rootDir fields := by
  constructor
  · rintro ⟨track, listed, named⟩
    obtain ⟨entry, member, parsed⟩ := List.mem_filterMap.mp listed
    obtain ⟨fields, rfl⟩ := parseEntry_some parsed
    exact ⟨fields, member, parseEntry_obj_iff.mp ⟨track, parsed, named⟩⟩
  · rintro ⟨fields, member, inOrder⟩
    obtain ⟨track, parsed, named⟩ := parseEntry_obj_iff.mpr inOrder
    exact ⟨track, List.mem_filterMap.mpr ⟨_, member, parsed⟩, named⟩

end LocalFileRepository

theorem parseTrackId_str {trackId : String} :
    parseTrackId (.str trackId) = .ok trackId ↔ isValidTrackId trackId = true := by
  unfold parseTrackId
  split <;> simp_all

theorem valid_loadTrackDelta (deck : DeckId) {trackId : String}
    (valid : isValidTrackId trackId = true) : (loadTrackDelta deck trackId).toChanges.Valid where
  trackId id given := by
    simp only [loadTrackDelta, StateDelta.toChanges, Option.map_some, Option.some.injEq] at given
    exact trackIdOfText_valid (.inr valid) id given
  positionSeconds value given := by
    simp only [loadTrackDelta, StateDelta.toChanges, Option.some.injEq] at given
    subst given
    norm_num [Server.FieldRange.positionSeconds, Server.Range.Holds]
  gain value given := by cases given
  playbackRate value given := by cases given
  pitchOffsetSemitones value given := by cases given
  loop points given := by cases given
  starts playing := by cases playing

theorem publishableTrack_iff (trackId : String) :
    PublishableTrack trackId ↔ isValidTrackId trackId = true := by
  constructor
  · exact fun publishable => parseTrackId_str.mp publishable.codec
  · intro valid
    have changes (deck : DeckId) := valid_loadTrackDelta deck valid
    refine ⟨parseTrackId_str.mpr valid, ?_, fun deck digits exact => ?_,
      fun serverSeq source deck => ?_⟩
    · simp [Server.validateTrackId, isValidTrackId_js valid]
    · rw [ClientMessage.toJs_of_exact exact]
      exact validateDelta_buildDelta rfl (changes deck)
    · rw [parseDeltaMessage_delta serverSeq source deck (changes deck)]
      exact congrArg Except.ok (ofChanges_toChanges (loadTrackDelta deck trackId))

/-- Every listed track can be published exactly when no entry that is otherwise in order has
dots in its id that the wire refuses. -/
theorem listed_tracks_publishable_iff (rootDir : RootDir) :
    (∀ track ∈ LocalFileRepository.listAvailableTracks rootDir, PublishableTrack track.id) ↔
      ∀ fields, .obj fields ∈ LocalFileRepository.manifestEntries rootDir →
        ∀ id, getProperty fields "id" = .str id → LocalFileRepository.isValidTrackId id = true →
          LocalFileRepository.Opens rootDir fields → DotFree id := by
  constructor
  · intro published fields member id named valid opens
    obtain ⟨track, listed, rfl⟩ :=
      LocalFileRepository.exists_mem_loadManifest_iff.mpr ⟨fields, member, named, valid, opens⟩
    have accepted := (publishableTrack_iff track.id).mp (published track listed)
    exact ((LocalFileRepository.isValidTrackId_iff track.id).mp accepted).2
  · intro dotFree track listed
    obtain ⟨fields, member, named, valid, opens⟩ :=
      LocalFileRepository.exists_mem_loadManifest_iff.mp ⟨track, listed, rfl⟩
    rw [publishableTrack_iff, LocalFileRepository.isValidTrackId_iff]
    exact ⟨valid, dotFree fields member track.id named valid opens⟩

/-- A directory of one track whose id has two dots in a row. -/
def dottedRootDir : RootDir where
  manifest := some (.obj [("tracks", .arr [.obj [("id", .str "intro..edit"),
    ("title", .str "Intro"), ("file", .str "intro.wav")]])])
  isAChildOf _ := true
  isSymbolicLink _ := false
  createReaderFor _ := some ⟨44100, 441000⟩

theorem dotted_track_unpublishable :
    ¬ ∀ track ∈ LocalFileRepository.listAvailableTracks dottedRootDir,
      PublishableTrack track.id := by
  intro published
  have listed : ∃ track ∈ LocalFileRepository.loadManifest dottedRootDir,
      track.id = "intro..edit" := by
    refine LocalFileRepository.exists_mem_loadManifest_iff.mpr ⟨_, List.mem_singleton_self _, rfl,
      by decide, ⟨_, rfl⟩, _, rfl, by decide, by decide, rfl⟩
  obtain ⟨track, member, named⟩ := listed
  have accepted := (publishableTrack_iff track.id).mp (published track member)
  rw [named] at accepted
  revert accepted
  decide

end DjApp.Client
