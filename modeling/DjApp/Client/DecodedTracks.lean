import DjApp.Client.LocalFileRepository
import DjApp.Engine.MixerProperties

/-! The catalogue in use: tracks are decoded as a deck loads them, from a disk that anybody may
change at any time, and what was decoded is kept. -/

set_option autoImplicit false

namespace DjApp.Client

open Library
open Engine (AudioRepository BeatGrid BufferPlaybackSource CrossfaderGains CrossfaderState
  EngineAdapter LoadedAudio Mixer)

/-!
## Files, headers and the cache
-/

/-- About an hour of stereo. -/
def maxDecodedSampleCount : ℤ := 48000 * 3600 * 2

/-- The channels of a file, of which a reader has at least one; `throws` is an allocation or a
read that fails. -/
structure AudioContent where
  channels : List (ℕ → Single)
  nonempty : channels ≠ []
  throws : Bool

/-- The directory as one request meets it: when the file is checked, and when it is opened. Others
may have changed it in between. -/
structure Disk where
  checked : RootDir
  opened : RootDir
  contents : String → AudioContent

/-- A cast to `juce::int64`, which is also what a product of such values comes to. -/
def toInt64 (value : ℤ) : ℤ := value.bmod (2 ^ 64)

/-- A cast to `int`. -/
def toInt32 (value : ℤ) : ℤ := value.bmod (2 ^ 32)

/-- The buffer that a file is read into. -/
def AudioContent.read (content : AudioContent) (reader : AudioFormatReader) : LoadedAudio where
  numSamples := (toInt32 reader.lengthInSamples).toNat
  sampleRate := reader.sampleRate
  channels := content.channels.map (List.range (toInt32 reader.lengthInSamples).toNat).map
  shaped := by simp

/-- A file is opened for its header first; `decoded` is the end of a read that went well. -/
inductive DiskAction where
  | opened (id fileName : String)
  | allocated (id : String) (numChannels : ℕ) (numSamples : ℤ)
  | decoded (id : String)
  deriving DecidableEq

/-- The track that an action is for. -/
def DiskAction.id : DiskAction → String
  | .opened id _ | .allocated id _ _ | .decoded id => id

structure LocalFileRepository where
  tracks : List TrackMetadata
  decodedCache : List (String × LoadedAudio) := []

namespace LocalFileRepository

def create (rootDir : RootDir) : LocalFileRepository := { tracks := loadManifest rootDir }

/-- The part of `getAudioBuffer` that goes to the disk. The file was checked before it was
listed, and is checked again. -/
def decode (disk : Disk) (track : TrackMetadata) : Option LoadedAudio × List DiskAction :=
  if !isSafeToOpen disk.checked track.fileName then (none, [])
  else
    match disk.opened.createReaderFor track.fileName with
    | none => (none, [.opened track.id track.fileName])
    | some reader =>
        let content := disk.contents track.fileName
        let numChannels := content.channels.length
        let totalSamples := toInt64 (reader.lengthInSamples * numChannels)
        if reader.lengthInSamples ≤ 0 ∨ maxDecodedSampleCount < totalSamples then
          (none, [.opened track.id track.fileName])
        else
          let allocates := [.opened track.id track.fileName,
            .allocated track.id numChannels (toInt32 reader.lengthInSamples)]
          if content.throws then (none, allocates)
          else (some (content.read reader), allocates ++ [.decoded track.id])

variable (repository : LocalFileRepository) (disk : Disk) (id : String)

/-- The first track with this id. -/
def getTrackMetadata : Option TrackMetadata := repository.tracks.find? (·.id = id)

def getAudioBuffer : LocalFileRepository × Option LoadedAudio × List DiskAction :=
  match repository.decodedCache.lookup id with
  | some audio => (repository, some audio, [])
  | none =>
      match repository.getTrackMetadata id with
      | none => (repository, none, [])
      | some track =>
          match decode disk track with
          | (none, actions) => (repository, none, actions)
          | (some audio, actions) =>
              ({ repository with decodedCache := (id, audio) :: repository.decodedCache },
                some audio, actions)

/-- The catalogue as the adapters see it at one moment. -/
def audioAt : AudioRepository := fun id => (repository.getAudioBuffer disk id).2.1

end LocalFileRepository

/-!
## Two decks over one catalogue
-/

/-- Both decks of the client, which share the catalogue. -/
structure LoadedDecks where
  mixer : Mixer
  repository : LocalFileRepository

/-- A change of a deck, with the disk as its request meets it, or a move of the crossfader. -/
inductive DecksEvent where
  | delta (disk : Disk) (delta : StateDelta) (source : DeltaSource)
  | crossfade (position : Single)

/-- The track that the deck of a delta asks for. -/
def StateDelta.loads (delta : StateDelta) : Option String := delta.trackId.filter (· ≠ "")

namespace LoadedDecks

variable (equalPowerCrossfade : Single → CrossfaderGains)

def step (decks : LoadedDecks) : DecksEvent → LoadedDecks × List DiskAction
  | .crossfade position =>
      ({ decks with mixer := decks.mixer.setCrossfader equalPowerCrossfade position }, [])
  | .delta disk delta source =>
      let mixer := decks.mixer.applyDelta (decks.repository.audioAt disk) delta source
      match delta.loads with
      | none => ({ decks with mixer := mixer }, [])
      | some id =>
          let fetched := decks.repository.getAudioBuffer disk id
          (⟨mixer, fetched.1⟩, fetched.2.2)

end LoadedDecks

section Runs

variable (rootDir : RootDir) (equalPowerCrossfade : Single → CrossfaderGains)
  (detector : LoadedAudio → BeatGrid) (crossfader : CrossfaderState) (events : List DecksEvent)

/-- The decks of a client that has just started. -/
def LoadedDecks.initial : LoadedDecks :=
  ⟨.attached equalPowerCrossfade detector crossfader, .create rootDir⟩

def decksAfter : LoadedDecks :=
  Machine.run (LoadedDecks.step equalPowerCrossfade)
    (.initial rootDir equalPowerCrossfade detector crossfader) events

end Runs

namespace LocalFileRepository

/-!
## What a load touches
-/

/-- What is in the cache stays there. -/
def Grows (before after : LocalFileRepository) : Prop :=
  ∀ id audio, before.decodedCache.lookup id = some audio → after.decodedCache.lookup id = some audio

theorem Grows.refl (repository : LocalFileRepository) : repository.Grows repository :=
  fun _ _ cached => cached

variable {repository : LocalFileRepository} {disk : Disk} {id : String}

/-- What one request can come to. -/
inductive Fetches (repository : LocalFileRepository) (disk : Disk) (id : String) :
    LocalFileRepository × Option LoadedAudio × List DiskAction → Prop where
  | cached (audio : LoadedAudio) (found : repository.decodedCache.lookup id = some audio) :
      Fetches repository disk id (repository, some audio, [])
  | unknown : Fetches repository disk id (repository, none, [])
  | failed (track : TrackMetadata) (actions : List DiskAction) (listed : track ∈ repository.tracks)
      (named : track.id = id) (absent : repository.decodedCache.lookup id = none)
      (decodes : decode disk track = (none, actions)) :
      Fetches repository disk id (repository, none, actions)
  | loaded (track : TrackMetadata) (audio : LoadedAudio) (actions : List DiskAction)
      (listed : track ∈ repository.tracks) (named : track.id = id)
      (absent : repository.decodedCache.lookup id = none)
      (decodes : decode disk track = (some audio, actions)) :
      Fetches repository disk id
        ({ repository with decodedCache := (id, audio) :: repository.decodedCache }, some audio,
          actions)

theorem fetches (repository : LocalFileRepository) (disk : Disk) (id : String) :
    Fetches repository disk id (repository.getAudioBuffer disk id) := by
  unfold getAudioBuffer
  cases cached : repository.decodedCache.lookup id with
  | some audio => exact .cached audio cached
  | none =>
      cases known : repository.getTrackMetadata id with
      | none => exact .unknown
      | some track =>
          have listed : track ∈ repository.tracks := List.mem_of_find?_eq_some known
          have named : track.id = id := by simpa using List.find?_some known
          dsimp only
          cases decodes : decode disk track with
          | mk audio actions =>
              cases audio with
              | none => exact .failed track actions listed named cached decodes
              | some audio => exact .loaded track audio actions listed named cached decodes

theorem grows_getAudioBuffer (repository : LocalFileRepository) (disk : Disk) (id : String) :
    repository.Grows (repository.getAudioBuffer disk id).1 := by
  have fetched := fetches repository disk id
  generalize repository.getAudioBuffer disk id = result at fetched ⊢
  cases fetched with
  | cached | unknown | failed => exact .refl repository
  | loaded track audio actions listed named absent decodes =>
      intro other earlier cached
      have unlike : other ≠ id := by
        rintro rfl
        rw [absent] at cached
        cases cached
      rw [List.lookup_cons, beq_false_of_ne unlike]
      exact cached

/-- Whatever is handed out is in the cache from then on. -/
theorem cached_of_audioAt {audio : LoadedAudio} (found : repository.audioAt disk id = some audio) :
    (repository.getAudioBuffer disk id).1.decodedCache.lookup id = some audio := by
  unfold audioAt at found
  have fetched := fetches repository disk id
  generalize repository.getAudioBuffer disk id = result at found fetched ⊢
  cases fetched with
  | unknown | failed => cases found
  | cached earlier held =>
      rw [← found]
      exact held
  | loaded track decoded actions listed named absent decodes =>
      rw [← found]
      exact List.lookup_cons_self

theorem audioAt_of_cached {audio : LoadedAudio}
    (cached : repository.decodedCache.lookup id = some audio) :
    repository.audioAt disk id = some audio := by
  simp only [audioAt, getAudioBuffer, cached]

-- So many frames of 65535 channels each overflow, and pass the check.
example : toInt64 (281479271743489 * 65535) ≤ maxDecodedSampleCount := by decide

end LocalFileRepository

/-!
## The disk in whole runs
-/

section Disks

variable {rootDir : RootDir} {equalPowerCrossfade : Single → CrossfaderGains}
  {detector : LoadedAudio → BeatGrid} {crossfader : CrossfaderState}

theorem grows_step (decks : LoadedDecks) (event : DecksEvent) :
    decks.repository.Grows (decks.step equalPowerCrossfade event).1.repository := by
  cases event with
  | crossfade position => exact .refl _
  | delta disk delta source =>
      unfold LoadedDecks.step
      dsimp only
      split
      · exact .refl _
      · exact LocalFileRepository.grows_getAudioBuffer _ disk _

end Disks

/-!
## The buffers on the decks
-/

section Buffers

variable {equalPowerCrossfade : Single → CrossfaderGains} {detector : LoadedAudio → BeatGrid}

/-- A deck plays what the catalogue has of its track, or nothing, and shows the beats of what
it plays. -/
structure Shows (repository : LocalFileRepository) (detector : LoadedAudio → BeatGrid)
    (adapter : EngineAdapter) (state : PlaybackState) (source : BufferPlaybackSource) : Prop where
  analyzes : adapter.beatDetector = some detector
  loaded : ∀ audio, source.activeBuffer = some audio →
    state.trackId ≠ "" ∧ repository.decodedCache.lookup state.trackId = some audio
  grid : adapter.cachedBeatGrid = source.activeBuffer.elim {} detector
  analyzed : adapter.lastAnalyzedTrackId = source.activeBuffer.elim "" fun _ => state.trackId

namespace Shows

variable {repository after : LocalFileRepository} {adapter : EngineAdapter} {state : PlaybackState}
  {source : BufferPlaybackSource}

theorem grow (shows : Shows repository detector adapter state source)
    (grows : repository.Grows after) : Shows after detector adapter state source where
  analyzes := shows.analyzes
  loaded audio playing :=
    (shows.loaded audio playing).imp id (grows state.trackId audio)
  grid := shows.grid
  analyzed := shows.analyzed

/-- A track that is loaded again was kept, so that its beats need no new analysis. -/
theorem analyze (shows : Shows repository detector adapter state source) (disk : Disk)
    (trackId : String) :
    let loaded := EngineAdapter.resolve (repository.audioAt disk) trackId
    (adapter.analyze trackId loaded).cachedBeatGrid = loaded.elim {} detector ∧
      (adapter.analyze trackId loaded).lastAnalyzedTrackId = loaded.elim "" fun _ => trackId := by
  intro loaded
  cases resolved : loaded with
  | none => exact ⟨rfl, rfl⟩
  | some audio =>
      have found : EngineAdapter.resolve (repository.audioAt disk) trackId = some audio := resolved
      have named := Engine.resolve_ne_empty found
      simp only [EngineAdapter.analyze, shows.analyzes]
      by_cases again : trackId = adapter.lastAnalyzedTrackId
      · have key := shows.analyzed
        have grid := shows.grid
        cases playing : source.activeBuffer with
        | none =>
            rw [playing] at key
            exact absurd (again.trans key) named
        | some earlier =>
            rw [playing, Option.elim_some] at key grid
            have kept := (shows.loaded earlier playing).2
            rw [← key, ← again] at kept
            have same : earlier = audio := by
              rw [EngineAdapter.resolve, if_neg named,
                LocalFileRepository.audioAt_of_cached kept] at found
              exact Option.some.inj found
            rw [if_pos again, grid, same]
            exact ⟨rfl, again.symm⟩
      · rw [if_neg again]
        exact ⟨rfl, rfl⟩

/-- A delta of the deck is handed to its adapter, which may ask for a track. -/
theorem handle (shows : Shows repository detector adapter state source) (disk : Disk)
    {applied : StateDelta} (named : applied.deck = adapter.deck) (grows : repository.Grows after)
    (fetched : ∀ trackId audio, applied.trackId = some trackId →
      EngineAdapter.resolve (repository.audioAt disk) trackId = some audio →
        after.decodedCache.lookup trackId = some audio) :
    Shows after detector (adapter.handleDelta (repository.audioAt disk) applied).1
      (state.merge applied)
      ((adapter.calls (repository.audioAt disk) applied).foldl .perform source) := by
  have parameters := Engine.parameters_calls adapter (repository.audioAt disk) named source
  have buffer := congrArg Engine.Parameters.activeBuffer parameters
  simp only [BufferPlaybackSource.parameters] at buffer
  obtain ⟨_, _, analyzes⟩ :=
    @Engine.handleDelta_attached (repository.audioAt disk) adapter applied
  obtain ⟨grid, analyzed⟩ :=
    @Engine.handleDelta_grid (repository.audioAt disk) adapter applied named
  cases carried : applied.trackId with
  | none =>
      rw [carried] at buffer grid analyzed
      have track : (state.merge applied).trackId = state.trackId := by
        simp [PlaybackState.merge, carried]
      refine ⟨analyzes.trans shows.analyzes, ?_, ?_, ?_⟩
      · rw [track, buffer]
        exact (shows.grow grows).loaded
      · rw [buffer, grid]
        exact shows.grid
      · rw [buffer, analyzed, track]
        exact shows.analyzed
  | some trackId =>
      rw [carried] at buffer grid analyzed
      have track : (state.merge applied).trackId = trackId := by
        simp [PlaybackState.merge, carried]
      obtain ⟨beats, key⟩ := shows.analyze disk trackId
      refine ⟨analyzes.trans shows.analyzes, ?_, ?_, ?_⟩
      · rw [track, buffer]
        intro audio found
        exact ⟨Engine.resolve_ne_empty found, fetched trackId audio carried found⟩
      · rw [buffer, grid]
        exact beats
      · rw [buffer, analyzed, track]
        exact key

end Shows

/-- Both decks show what they play. -/
structure LoadedDecks.Showing (detector : LoadedAudio → BeatGrid) (decks : LoadedDecks) : Prop where
  own : ∀ deck, (decks.mixer.adapters deck).deck = deck
  shows : ∀ deck, Shows decks.repository detector (decks.mixer.deckEngine deck).adapter
    (decks.mixer.deckEngine deck).state (decks.mixer.deckEngine deck).source

namespace LoadedDecks.Showing

variable {decks : LoadedDecks}

theorem initial (rootDir : RootDir) (crossfader : CrossfaderState) :
    (LoadedDecks.initial rootDir equalPowerCrossfade detector crossfader).Showing detector where
  own _ := rfl
  shows deck := ⟨rfl, (by rintro audio ⟨⟩), rfl, rfl⟩

theorem crossfade (showing : decks.Showing detector) (position : Single) :
    (decks.step equalPowerCrossfade (.crossfade position)).1.Showing detector := by
  have moved (deck : DeckId) := showing.shows deck
  simp only [LoadedDecks.step, Mixer.setCrossfader]
  split
  · exact ⟨showing.own, fun deck =>
      ⟨(moved deck).analyzes, (moved deck).loaded, (moved deck).grid, (moved deck).analyzed⟩⟩
  · exact ⟨showing.own, fun deck =>
      ⟨(moved deck).analyzes, (moved deck).loaded, (moved deck).grid, (moved deck).analyzed⟩⟩

theorem delta (showing : decks.Showing detector) (disk : Disk) (delta : StateDelta)
    (source : DeltaSource) :
    (decks.step equalPowerCrossfade (.delta disk delta source)).1.Showing detector := by
  have grows := @grows_step equalPowerCrossfade decks (.delta disk delta source)
  have mixer : (decks.step equalPowerCrossfade (.delta disk delta source)).1.mixer =
      decks.mixer.applyDelta (decks.repository.audioAt disk) delta source := by
    unfold LoadedDecks.step
    dsimp only
    split <;> rfl
  have fetched : ∀ trackId audio, delta.trackId = some trackId →
      EngineAdapter.resolve (decks.repository.audioAt disk) trackId = some audio →
        (decks.step equalPowerCrossfade
          (.delta disk delta source)).1.repository.decodedCache.lookup trackId = some audio := by
    intro trackId audio carried found
    have named := Engine.resolve_ne_empty found
    have loads : delta.loads = some trackId := by
      simp [StateDelta.loads, carried, named]
    rw [EngineAdapter.resolve, if_neg named] at found
    simp only [LoadedDecks.step, loads]
    exact LocalFileRepository.cached_of_audioAt found
  generalize (decks.step equalPowerCrossfade (.delta disk delta source)).1 = after
    at grows mixer fetched ⊢
  have each := Mixer.deckEngine_applyDelta (decks.repository.audioAt disk) decks.mixer delta source
  rw [← mixer] at each
  constructor
  · intro deck
    apply (congrArg (·.adapter.deck) (each deck)).trans
    rw [Engine.step_deck]
    exact showing.own deck
  · intro deck
    rw [each deck]
    have before := showing.shows deck
    generalize decks.mixer.deckEngine deck = engine at before ⊢
    by_cases reaches : delta.deck = engine.adapter.deck ∧ delta.empty = false
    · obtain ⟨applied, step⟩ := @Engine.applied_of_named engine
        ⟨delta, source, decks.repository.audioAt disk⟩ reaches.1 reaches.2
      rw [step.adapter, step.state, step.source]
      apply before.handle disk step.named grows
      intro trackId audio carried
      exact fetched trackId audio (step.trackId.symm.trans carried)
    · have unnamed : delta.deck ≠ engine.adapter.deck ∨ delta.empty = true := by
        by_cases named : delta.deck = engine.adapter.deck
        · exact .inr (by simpa [named] using reaches)
        · exact .inl named
      obtain ⟨state, played, adapter⟩ := @Engine.step_unnamed engine
        ⟨delta, source, decks.repository.audioAt disk⟩ unnamed
      rw [adapter, state, played]
      exact before.grow grows

theorem step (showing : decks.Showing detector) (event : DecksEvent) :
    (decks.step equalPowerCrossfade event).1.Showing detector := by
  cases event with
  | crossfade position => exact showing.crossfade position
  | delta disk delta source => exact showing.delta disk delta source

theorem run (rootDir : RootDir) (crossfader : CrossfaderState) (events : List DecksEvent) :
    (decksAfter rootDir equalPowerCrossfade detector crossfader events).Showing detector :=
  Machine.run_invariant (LoadedDecks.step equalPowerCrossfade) (Showing detector)
    (fun _ event showing => showing.step event) (initial rootDir crossfader) events

/-- A track that has been decoded can be loaded from whatever disk. -/
theorem loads_cached (showing : decks.Showing detector) {trackId : String} {audio : LoadedAudio}
    (cached : decks.repository.decodedCache.lookup trackId = some audio) (named : trackId ≠ "")
    (disk : Disk) {delta : StateDelta} (source : DeltaSource) (carried : delta.trackId = some trackId) :
    ((decks.step equalPowerCrossfade (.delta disk delta source)).1.mixer.sources
      delta.deck).activeBuffer = some audio := by
  have mixer : (decks.step equalPowerCrossfade (.delta disk delta source)).1.mixer =
      decks.mixer.applyDelta (decks.repository.audioAt disk) delta source := by
    unfold LoadedDecks.step
    dsimp only
    split <;> rfl
  have each := Mixer.deckEngine_applyDelta (decks.repository.audioAt disk) decks.mixer delta source
    delta.deck
  rw [← mixer] at each
  have present : delta.empty = false := by simp [StateDelta.empty, carried]
  obtain ⟨applied, step⟩ := @Engine.applied_of_named (decks.mixer.deckEngine delta.deck)
    ⟨delta, source, decks.repository.audioAt disk⟩ (showing.own delta.deck).symm present
  have parameters := Engine.parameters_calls (decks.mixer.deckEngine delta.deck).adapter
    (decks.repository.audioAt disk) step.named (decks.mixer.deckEngine delta.deck).source
  have buffer := congrArg Engine.Parameters.activeBuffer parameters
  have track : applied.trackId = some trackId := step.trackId.trans carried
  simp only [BufferPlaybackSource.parameters, track, Option.elim_some, EngineAdapter.resolve,
    if_neg named, LocalFileRepository.audioAt_of_cached cached] at buffer
  have played := step.source
  rw [← each] at played
  exact (congrArg BufferPlaybackSource.activeBuffer played).trans buffer

end LoadedDecks.Showing

/-- However the disk changes under a client, each deck plays the one buffer that the catalogue
keeps of the deck's track, or nothing, and the beat grid of a deck is always that of what it
plays. -/
theorem decks_play_kept_tracks (rootDir : RootDir)
    (equalPowerCrossfade : Single → CrossfaderGains) (detector : LoadedAudio → BeatGrid)
    (crossfader : CrossfaderState) (events : List DecksEvent) (deck : DeckId) :
    let decks := decksAfter rootDir equalPowerCrossfade detector crossfader events
    let playing := (decks.mixer.sources deck).activeBuffer
    (∀ audio, playing = some audio → decks.repository.decodedCache.lookup
        (decks.mixer.manager.getState deck).trackId = some audio) ∧
      (decks.mixer.adapters deck).currentBeatGrid = playing.elim {} detector ∧
      ∀ trackId audio, decks.repository.decodedCache.lookup trackId = some audio → trackId ≠ "" →
        ∀ disk delta source, delta.deck = deck → delta.trackId = some trackId →
          ((decks.step equalPowerCrossfade (.delta disk delta source)).1.mixer.sources
            deck).activeBuffer = some audio := by
  intro decks playing
  have showing : decks.Showing detector := LoadedDecks.Showing.run rootDir crossfader events
  have shows := showing.shows deck
  simp only [Mixer.deckEngine, Engine.DeckEngine.state, showing.own deck] at shows
  refine ⟨fun audio played => (shows.loaded audio played).2, shows.grid, ?_⟩
  rintro trackId audio cached named disk delta source rfl carried
  exact showing.loads_cached cached named disk source carried

end Buffers

end DjApp.Client
