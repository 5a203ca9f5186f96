import DjApp.Client.WebSocketTransport
import DjApp.Library.AssocList
import DjApp.Server.FrameJson
import DjApp.Server.ValidateProperties

/-! What the client reads in the frames a room sends: every value that passed the
server's checks parses, and clamping leaves it alone. -/

set_option autoImplicit false

namespace DjApp

open Library

section Parsing

@[simp] theorem toVar_bool (value : Bool) : JsValue.toVar (.bool value) = .bool value := by
  simp [JsValue.toVar, Json.mapStr]

@[simp] theorem toVar_number (value : ℚ) : JsValue.toVar (.number value) = .number value := by
  simp [JsValue.toVar, Json.mapStr, Json.number]

@[simp] theorem toVar_str (units : JsString) : JsValue.toVar (.str units) = .str units.toText := by
  simp [JsValue.toVar, Json.mapStr]

@[simp] theorem toVar_text (value : String) : JsValue.toVar (Server.text value) = .str value := by
  simp [Server.text]

theorem mapItems_eq_map (items : List JsValue) :
    Json.mapItems JsString.toText items = items.map JsValue.toVar := by
  induction items with
  | nil => rfl
  | cons item rest ih => rw [Json.mapItems, ih]; rfl

theorem mapFields_eq_map (fields : List (JsString × JsValue)) :
    Json.mapFields JsString.toText fields =
      fields.map fun field => (field.1.toText, field.2.toVar) := by
  induction fields with
  | nil => rfl
  | cons field rest ih => rw [Json.mapFields, ih]; rfl

@[simp] theorem toVar_arr (items : List JsValue) :
    JsValue.toVar (.arr items) = .arr (items.map JsValue.toVar) := by
  rw [JsValue.toVar, Json.mapStr, mapItems_eq_map]

@[simp] theorem toVar_object (fields : List (String × JsValue)) :
    JsValue.toVar (Server.object fields) =
      .obj (fields.map fun field => (field.1, field.2.toVar)) := by
  rw [JsValue.toVar, Server.object, Json.mapStr, mapFields_eq_map, List.map_map]
  simp [Function.comp_def]

end Parsing

namespace Client

open Server (Range)

namespace Single

theorem ofDouble_le {value bound : ℚ}
    (representable : BinaryRounding.Representable BinaryRounding.binary32 bound)
    (below : value ≤ bound) : (ofDouble value).value ≤ bound :=
  BinaryRounding.round_le_of_le_representable _ (by decide) representable below

theorem le_ofDouble {value bound : ℚ}
    (representable : BinaryRounding.Representable BinaryRounding.binary32 bound)
    (above : bound ≤ value) : bound ≤ (ofDouble value).value :=
  BinaryRounding.representable_le_round_of_le _ (by decide) representable above

end Single

theorem representable_intCast (value : ℤ) (small : |value| ≤ 2 ^ 24) :
    BinaryRounding.Representable BinaryRounding.binary32 value :=
  ⟨value, 0, small, by decide, by simp⟩

theorem representable_half : BinaryRounding.Representable BinaryRounding.binary32 (1 / 2) :=
  ⟨1, -1, by decide, by decide, by norm_num⟩

/-- The bounds of a field of floats, as the client and the server have them. -/
structure SharedRange (range : Range) (low high : Single) : Prop where
  low : low.value = range.min
  high : high.value = range.max
  lowRepresentable : BinaryRounding.Representable BinaryRounding.binary32 range.min
  highRepresentable : BinaryRounding.Representable BinaryRounding.binary32 range.max
  narrow : -(2 ^ 127) ≤ range.min ∧ range.max ≤ 2 ^ 127

theorem sharedRange_of_representable {range : Range}
    (low : BinaryRounding.Representable BinaryRounding.binary32 range.min)
    (high : BinaryRounding.Representable BinaryRounding.binary32 range.max)
    (narrow : -(2 ^ 127) ≤ range.min ∧ range.max ≤ 2 ^ 127) :
    SharedRange range (.ofDouble range.min) (.ofDouble range.max) :=
  ⟨Single.representable_value low, Single.representable_value high, low, high, narrow⟩

theorem sharedRange_gain : SharedRange Server.FieldRange.gain Ranges.gainMin Ranges.gainMax :=
  sharedRange_of_representable (by exact_mod_cast representable_intCast 0 (by decide))
    (by exact_mod_cast representable_intCast 2 (by decide))
    (by norm_num [Server.FieldRange.gain])

theorem sharedRange_playbackRate : SharedRange Server.FieldRange.playbackRate
    Ranges.playbackRateMin Ranges.playbackRateMax :=
  sharedRange_of_representable representable_half
    (by exact_mod_cast representable_intCast 2 (by decide))
    (by norm_num [Server.FieldRange.playbackRate])

theorem sharedRange_pitchOffsetSemitones : SharedRange Server.FieldRange.pitchOffsetSemitones
    Ranges.pitchOffsetSemitonesMin Ranges.pitchOffsetSemitonesMax :=
  sharedRange_of_representable (by exact_mod_cast representable_intCast (-12) (by decide))
    (by exact_mod_cast representable_intCast 12 (by decide))
    (by norm_num [Server.FieldRange.pitchOffsetSemitones])

namespace SharedRange

variable {range : Range} {low high : Single} (shared : SharedRange range low high) {value : ℚ}
  (holds : range.Holds value)

include shared holds

theorem bounds : low.value ≤ (Single.ofDouble value).value ∧
    (Single.ofDouble value).value ≤ high.value := by
  rw [shared.low, shared.high]
  exact ⟨Single.le_ofDouble shared.lowRepresentable holds.1,
    Single.ofDouble_le shared.highRepresentable holds.2⟩

theorem clamp_ofDouble : (Single.ofDouble value).clamp low high = .ofDouble value := by
  obtain ⟨above, below⟩ := shared.bounds holds
  simp only [Single.clamp, not_lt.mpr above, not_lt.mpr below, ↓reduceIte]

theorem asFiniteFloat_number : asFiniteFloat (.number value) = some (.ofDouble value) := by
  obtain ⟨above, below⟩ := shared.bounds holds
  obtain ⟨lower, upper⟩ := shared.narrow
  rw [shared.low] at above
  rw [shared.high] at below
  have small : |(Single.ofDouble value).value| < 2 ^ 128 := by
    rw [abs_lt]
    constructor <;> linarith
  simp [asFiniteFloat, asFiniteNumber, Json.number, small]

end SharedRange

theorem clampPosition_of_holds {value : ℚ} (holds : Server.FieldRange.positionSeconds.Holds value) :
    clampPosition value = value := by
  obtain ⟨above, below⟩ := holds
  simp only [Server.FieldRange.positionSeconds] at above below
  simp [clampPosition, Ranges.clamp, Ranges.positionSecondsMin, Ranges.positionSecondsMax,
    not_lt.mpr above, not_lt.mpr below]

def LoopPoints.ofLoop (loop : Server.Loop) : LoopPoints := ⟨loop.inSeconds, loop.outSeconds⟩

theorem clampLoop_of_valid {loop : Server.Loop} (valid : loop.Valid) :
    clampLoop (some (.ofLoop loop)) = some (.ofLoop loop) := by
  have start := valid.start
  have ordered := valid.ordered
  have stop := valid.stop
  have kept : (LoopPoints.ofLoop loop).clamp = .ofLoop loop := by
    simp [LoopPoints.clamp, LoopPoints.ofLoop, Ranges.clamp, Ranges.loopSecondsMin,
      Ranges.loopSecondsMax, not_lt.mpr start, not_lt.mpr stop,
      not_lt.mpr (start.trans ordered.le), not_lt.mpr (ordered.le.trans stop)]
  have strict : ¬ ((LoopPoints.ofLoop loop).outSeconds ≤ (LoopPoints.ofLoop loop).inSeconds) :=
    not_le.mpr ordered
  simp only [clampLoop, Option.bind_some, kept, strict, ↓reduceIte]

/-- The text of a track id; no track reads as the empty one. -/
def trackIdText : Option JsString → String
  | none => ""
  | some units => units.toText

private theorem trackIdUnit_character : ∀ code : Fin 128,
    Server.isTrackIdUnit (UInt16.ofNat code) = true →
      trackIdCharacters.contains (Utf16.toChar code) = true := by
  decide +kernel

private theorem dot_unit : ∀ code : Fin 128,
    (Utf16.toChar code == '.') = (UInt16.ofNat code == 0x2E) := by
  decide +kernel

theorem trackIdUnit_lt {unit : UInt16} (allowed : Server.isTrackIdUnit unit = true) :
    unit.toNat < 128 := by
  simp only [Server.isTrackIdUnit, Bool.or_eq_true, Bool.and_eq_true, decide_eq_true_eq,
    beq_iff_eq] at allowed
  omega

theorem trackIdUnit_contains {unit : UInt16} (allowed : Server.isTrackIdUnit unit = true) :
    trackIdCharacters.contains (Utf16.toChar unit.toNat) = true := by
  have found := trackIdUnit_character ⟨unit.toNat, trackIdUnit_lt allowed⟩
  rw [UInt16.ofNat_toNat] at found
  exact found allowed

theorem dot_iff {unit : UInt16} (allowed : Server.isTrackIdUnit unit = true) :
    (Utf16.toChar unit.toNat == '.') = (unit == 0x2E) := by
  have found := dot_unit ⟨unit.toNat, trackIdUnit_lt allowed⟩
  rwa [UInt16.ofNat_toNat] at found

theorem toList_toText_trackId {units : JsString}
    (allowed : ∀ unit ∈ units, Server.isTrackIdUnit unit = true) :
    units.toText.toList = units.map fun unit => Utf16.toChar unit.toNat := by
  have plain : ∀ unit ∈ units, Utf16.isHighSurrogate unit = false := by
    intro unit member
    have small := trackIdUnit_lt (allowed unit member)
    rw [Bool.eq_false_iff, ne_eq, Utf16.isHighSurrogate_iff]
    omega
  rw [JsString.toText, String.toList_ofList, Utf16.decode, Utf16.codePoints_eq_map plain,
    List.map_map]
  rfl

theorem containsDotDot_map {units : JsString}
    (allowed : ∀ unit ∈ units, Server.isTrackIdUnit unit = true) :
    containsDotDot (units.map fun unit => Utf16.toChar unit.toNat) =
      Server.includesDotDot units := by
  induction units with
  | nil => rfl
  | cons first rest ih =>
      obtain ⟨firstAllowed, others⟩ := List.forall_mem_cons.mp allowed
      cases rest with
      | nil => rfl
      | cons second rest =>
          have secondAllowed := others second List.mem_cons_self
          have tail := ih others
          simp only [List.map_cons] at tail
          simp only [List.map_cons, containsDotDot, Server.includesDotDot, tail,
            dot_iff firstAllowed, dot_iff secondAllowed]

/-- The client accepts every track id that the server accepts. -/
theorem isValidTrackId_toText {units : JsString} (valid : Server.isValidTrackId units = true) :
    isValidTrackId units.toText = true := by
  simp only [Server.isValidTrackId, Server.matchesTrackIdPattern, Bool.and_eq_true,
    decide_eq_true_eq, Bool.not_eq_true', Bool.or_eq_false_iff] at valid
  obtain ⟨⟨⟨nonempty, bounded⟩, characters⟩, ⟨notDot, notDots⟩, noDots⟩ := valid
  have allowed := List.all_eq_true.mp characters
  have text := toList_toText_trackId allowed
  have single : units.toText ≠ "." := by
    intro same
    have shape := congrArg String.toList same
    rw [text] at shape
    obtain ⟨unit, rest, rfl, character, nothing⟩ := List.map_eq_cons_iff.mp shape
    obtain rfl := List.map_eq_nil_iff.mp nothing
    have dot := dot_iff (allowed unit List.mem_cons_self)
    rw [character] at dot
    have code : unit = 0x2E := beq_iff_eq.mp dot.symm
    subst code
    exact absurd notDot (by decide)
  have double : units.toText ≠ ".." := by
    intro same
    have shape := congrArg String.toList same
    rw [text] at shape
    have dots := containsDotDot_map allowed
    rw [shape, noDots] at dots
    cases dots
  have within : ((units.map fun unit => Utf16.toChar unit.toNat).isEmpty ||
      decide (64 < (units.map fun unit => Utf16.toChar unit.toNat).length)) = false := by
    have some : units ≠ [] := List.ne_nil_of_length_pos nonempty
    simp [some, not_lt.mpr bounded]
  have contained : (units.map fun unit => Utf16.toChar unit.toNat).all
      trackIdCharacters.contains = true := by
    rw [List.all_map, List.all_eq_true]
    exact fun unit member => trackIdUnit_contains (allowed unit member)
  simp only [isValidTrackId, text, within, contained, containsDotDot_map allowed, noDots, single,
    double, decide_false, Bool.or_false, Bool.not_true, Bool.not_false, Bool.false_eq_true,
    ↓reduceIte]

/-- The client's image of a deck of the room. -/
def PlaybackState.ofDeck (deck : Server.Deck) : PlaybackState where
  trackId := trackIdText deck.trackId
  playing := deck.playing
  positionSeconds := deck.positionSeconds
  gain := .ofDouble deck.gain
  playbackRate := .ofDouble deck.playbackRate
  pitchOffsetSemitones := .ofDouble deck.pitchOffsetSemitones
  loop := deck.loop.map .ofLoop
  repeats := deck.repeats

def StateDelta.ofChanges (deck : DeckId) (changes : Server.Changes) : StateDelta where
  deck := deck
  trackId := changes.trackId.map trackIdText
  playing := changes.playing
  positionSeconds := changes.positionSeconds
  gain := changes.gain.map .ofDouble
  playbackRate := changes.playbackRate.map .ofDouble
  pitchOffsetSemitones := changes.pitchOffsetSemitones.map .ofDouble
  loop := changes.loop.map (·.map .ofLoop)
  repeats := changes.repeats

theorem ofDeck_default : PlaybackState.ofDeck Server.defaultDeckState = {} := rfl

theorem parseTrackId_trackIdToJson {trackId : Option JsString}
    (valid : ∀ id, trackId = some id → Server.isValidTrackId id = true) :
    parseTrackId (Server.trackIdToJson trackId).toVar = .ok (trackIdText trackId) := by
  cases trackId with
  | none => rfl
  | some units =>
      have accepted := isValidTrackId_toText (valid units rfl)
      simp [Server.trackIdToJson, parseTrackId, accepted, trackIdText]

@[simp] theorem asFiniteNumber_number (value : ℚ) : asFiniteNumber (.number value) = some value := rfl

@[simp] theorem parseBool_bool (value : Bool) : parseBool (.bool value) = .ok value := rfl

@[simp] theorem parseFinite_number (field : String) (value : ℚ) :
    parseFinite field (.number value) = .ok value := rfl

theorem parseLoopValue_loopToJson {loop : Option Server.Loop}
    (valid : ∀ points, loop = some points → points.Valid) :
    parseLoopValue (Server.loopToJson loop).toVar = .ok (loop.map .ofLoop) := by
  cases loop with
  | none => rfl
  | some points =>
      have ordered := (valid points rfl).ordered
      simp [Server.loopToJson, parseLoopValue, hasOnlyKnownKeys, hasProperty, getProperty,
        ordered, LoopPoints.ofLoop, List.lookup_cons]

theorem parseFiniteFloat_number {range : Range} {low high : Single}
    (shared : SharedRange range low high) {value : ℚ} (holds : range.Holds value) (field : String) :
    parseFiniteFloat field (.number value) = .ok (.ofDouble value) := by
  simp only [parseFiniteFloat, shared.asFiniteFloat_number holds]

theorem playbackStateFromVar_deckToJson {deck : Server.Deck} (valid : deck.Valid) :
    playbackStateFromVar (Server.deckToJson deck).toVar = .ok (.ofDeck deck) := by
  simp [Server.deckToJson, playbackStateFromVar, hasOnlyKnownKeys, stateKeys, parseFields,
    parseProperty, List.lookup_cons, parseTrackId_trackIdToJson valid.trackId,
    parseLoopValue_loopToJson valid.loop,
    parseFiniteFloat_number sharedRange_gain valid.gain,
    parseFiniteFloat_number sharedRange_playbackRate valid.playbackRate,
    parseFiniteFloat_number sharedRange_pitchOffsetSemitones valid.pitchOffsetSemitones,
    Except.map, bind, Except.bind, PlaybackState.ofDeck]

theorem parseProperty_of_lookup {Source Value : Type} {fields : Properties} {name : String}
    {source : Option Source} {encode : Source → Var} {parse : Var → Result Value}
    {decode : Source → Value} (found : fields.lookup name = source.map encode)
    (parsed : ∀ x, source = some x → parse (encode x) = .ok (decode x)) :
    parseProperty fields name parse = .ok (source.map decode) := by
  cases source with
  | none => simp [parseProperty, found]
  | some x => simp [parseProperty, found, parsed x rfl, Except.map]

theorem parseFields_changes {fields : Properties} {changes : Server.Changes}
    (valid : changes.Valid) (deck : DeckId)
    (found : ∀ key ∈ stateKeys,
      fields.lookup key = ((Server.changesFields changes).lookup key).map JsValue.toVar) :
    parseFields fields deck = .ok (.ofChanges deck changes) := by
  simp only [stateKeys, List.forall_mem_cons, Server.changesFields, List.lookup_append,
    AssocList.lookup_toList_map, String.reduceEq, ↓reduceIte, Option.none_or, Option.or_none,
    Option.map_map] at found
  obtain ⟨trackId, playing, positionSeconds, gain, playbackRate, pitchOffsetSemitones, loop,
    repeats, _⟩ := found
  have trackIdParsed : parseProperty fields "trackId" parseTrackId =
      .ok (changes.trackId.map trackIdText) :=
    parseProperty_of_lookup trackId fun id present =>
      parseTrackId_trackIdToJson fun units given => valid.trackId units (by rw [present, given])
  have playingParsed : parseProperty fields "playing" parseBool = .ok (changes.playing.map id) :=
    parseProperty_of_lookup playing fun value _ => by simp
  have repeatsParsed : parseProperty fields "repeat" parseBool = .ok (changes.repeats.map id) :=
    parseProperty_of_lookup repeats fun value _ => by simp
  have positionParsed : parseProperty fields "positionSeconds" (parseFinite "positionSeconds") =
      .ok (changes.positionSeconds.map id) :=
    parseProperty_of_lookup positionSeconds fun value _ => by simp
  have gainParsed : parseProperty fields "gain" (parseFiniteFloat "gain") =
      .ok (changes.gain.map .ofDouble) :=
    parseProperty_of_lookup gain fun value present => by
      simp [parseFiniteFloat_number sharedRange_gain (valid.gain value present)]
  have rateParsed : parseProperty fields "playbackRate" (parseFiniteFloat "playbackRate") =
      .ok (changes.playbackRate.map .ofDouble) :=
    parseProperty_of_lookup playbackRate fun value present => by
      simp [parseFiniteFloat_number sharedRange_playbackRate (valid.playbackRate value present)]
  have pitchParsed : parseProperty fields "pitchOffsetSemitones"
      (parseFiniteFloat "pitchOffsetSemitones") =
      .ok (changes.pitchOffsetSemitones.map .ofDouble) :=
    parseProperty_of_lookup pitchOffsetSemitones fun value present => by
      simp [parseFiniteFloat_number sharedRange_pitchOffsetSemitones
        (valid.pitchOffsetSemitones value present)]
  have loopParsed : parseProperty fields "loop" parseLoopValue =
      .ok (changes.loop.map (·.map .ofLoop)) :=
    parseProperty_of_lookup loop fun value present =>
      parseLoopValue_loopToJson fun points given => valid.loop points (by rw [present, given])
  simp [parseFields, trackIdParsed, playingParsed, repeatsParsed, positionParsed, gainParsed,
    rateParsed, pitchParsed, loopParsed, bind, Except.bind, StateDelta.ofChanges]

theorem mem_stateKeys_of_mem_changesFields {changes : Server.Changes} {field : String × JsValue}
    (member : field ∈ Server.changesFields changes) : field.1 ∈ stateKeys := by
  simp only [Server.changesFields, List.mem_append, List.mem_map] at member
  rcases member with ((((((⟨_, _, rfl⟩ | ⟨_, _, rfl⟩) | ⟨_, _, rfl⟩) | ⟨_, _, rfl⟩) | ⟨_, _, rfl⟩) |
    ⟨_, _, rfl⟩) | ⟨_, _, rfl⟩) | ⟨_, _, rfl⟩ <;> simp [stateKeys]

theorem deck_not_mem_stateKeys : "deck" ∉ stateKeys := by decide

theorem deckFromString_text (deck : DeckId) : deckFromString deck.text = some deck := by
  cases deck <;> decide

theorem parseDeltaMessage_delta (serverSeq : ℕ) (source : Server.ClientId) (deck : DeckId)
    {changes : Server.Changes} (valid : changes.Valid) :
    parseDeltaMessage (Server.Frame.delta serverSeq source deck changes).toVar =
      .ok (.ofChanges deck changes) := by
  let parsed : Properties :=
    (Server.changesFields changes).map fun field => (field.1, field.2.toVar)
  have known : ∀ field ∈ parsed, field.1 ∈ stateKeys := by
    intro field member
    obtain ⟨original, present, rfl⟩ := List.mem_map.mp member
    exact mem_stateKeys_of_mem_changesFields present
  have noDeck : parsed.lookup "deck" = none := by
    rw [AssocList.lookup_eq_none_iff_not_mem_keys]
    intro present
    obtain ⟨field, member, named⟩ := List.mem_map.mp present
    exact deck_not_mem_stateKeys (named ▸ known field member)
  have onlyKnown : hasOnlyKnownKeys (("deck", .str deck.text) :: parsed.filter (·.1 != "deck"))
      ("deck" :: stateKeys) = true := by
    simp only [hasOnlyKnownKeys, List.all_eq_true, List.contains_iff_mem, List.forall_mem_cons]
    refine ⟨List.mem_cons_self, ?_⟩
    intro field member
    exact List.mem_cons_of_mem _ (known field (List.mem_of_mem_filter member))
  have found : ∀ key ∈ stateKeys,
      (("deck", .str deck.text) :: parsed.filter (·.1 != "deck")).lookup key =
        ((Server.changesFields changes).lookup key).map JsValue.toVar := by
    intro key member
    have other : key ≠ "deck" := by
      rintro rfl
      exact deck_not_mem_stateKeys member
    rw [List.lookup_cons, beq_false_of_ne other]
    exact (AssocList.lookup_filter_ne other parsed).trans (AssocList.lookup_map key _ _)
  have decoded : stateDeltaFromVar (.obj (("deck", .str deck.text) ::
      parsed.filter (·.1 != "deck"))) = .ok (.ofChanges deck changes) := by
    simp only [stateDeltaFromVar, onlyKnown, Bool.not_true, Bool.false_eq_true, ↓reduceIte,
      List.lookup_cons_self, deckFromString_text]
    exact parseFields_changes valid deck found
  simp only [Server.Frame.toVar, Server.Frame.asJson, toVar_object, List.map_cons, List.map_nil,
    toVar_text, parseDeltaMessage]
  simpa [List.lookup_cons, getProperty, parsed, noDeck] using decoded

end Client

end DjApp
