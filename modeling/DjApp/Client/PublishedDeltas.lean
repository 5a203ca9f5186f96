import DjApp.Client.FrameHandling
import DjApp.Server.RoomProperties

/-! The client's states and deltas as values of the server, and why the server accepts
what a client publishes. -/

set_option autoImplicit false

namespace DjApp

open Library

section Writing

@[simp] theorem asJs_null : Var.asJs .null = .null := by
  simp [Var.asJs, Json.mapStr]

@[simp] theorem asJs_bool (value : Bool) : Var.asJs (.bool value) = .bool value := by
  simp [Var.asJs, Json.mapStr]

@[simp] theorem asJs_num (value : JsNumber) : Var.asJs (.num value) = .num value := by
  simp [Var.asJs, Json.mapStr]

@[simp] theorem asJs_number (value : ℚ) : Var.asJs (.number value) = .number value := by
  simp [Var.asJs, Json.mapStr, Json.number]

@[simp] theorem asJs_str (text : String) : Var.asJs (.str text) = .str (js text) := by
  simp [Var.asJs, Json.mapStr]

@[simp] theorem asJs_obj (fields : List (String × Var)) :
    Var.asJs (.obj fields) = .obj (fields.map fun field => (js field.1, field.2.asJs)) := by
  have mapped : ∀ rest : List (String × Var), Json.mapFields js rest =
      rest.map fun field => (js field.1, field.2.asJs) := by
    intro rest
    induction rest with
    | nil => rfl
    | cons field rest ih => rw [Json.mapFields, ih]; rfl
  rw [Var.asJs, Json.mapStr, mapped]

end Writing

namespace Client

open Server (Range)

/-- The track id of a text; the empty text is no track. -/
def trackIdOfText (text : String) : Option JsString := if text = "" then none else some (js text)

def LoopPoints.toLoop (points : LoopPoints) : Server.Loop := ⟨points.inSeconds, points.outSeconds⟩

def PlaybackState.toDeck (state : PlaybackState) : Server.Deck where
  trackId := trackIdOfText state.trackId
  playing := state.playing
  positionSeconds := state.positionSeconds
  gain := state.gain.value
  playbackRate := state.playbackRate.value
  pitchOffsetSemitones := state.pitchOffsetSemitones.value
  loop := state.loop.map LoopPoints.toLoop
  repeats := state.repeats

def StateDelta.toChanges (delta : StateDelta) : Server.Changes where
  trackId := delta.trackId.map trackIdOfText
  playing := delta.playing
  positionSeconds := delta.positionSeconds
  gain := delta.gain.map (·.value)
  playbackRate := delta.playbackRate.map (·.value)
  pitchOffsetSemitones := delta.pitchOffsetSemitones.map (·.value)
  loop := delta.loop.map (·.map LoopPoints.toLoop)
  repeats := delta.repeats

@[simp] theorem trackIdText_trackIdOfText (text : String) :
    trackIdText (trackIdOfText text) = text := by
  unfold trackIdOfText
  split
  · rename_i empty
    exact empty.symm
  · exact toText_js text

theorem ofLoop_toLoop (points : LoopPoints) : LoopPoints.ofLoop points.toLoop = points := rfl

@[simp] theorem ofDeck_toDeck (state : PlaybackState) : PlaybackState.ofDeck state.toDeck = state := by
  cases state
  simp [PlaybackState.ofDeck, PlaybackState.toDeck, Function.comp_def, ofLoop_toLoop]

@[simp] theorem ofChanges_toChanges (delta : StateDelta) :
    StateDelta.ofChanges delta.deck delta.toChanges = delta := by
  cases delta
  simp [StateDelta.ofChanges, StateDelta.toChanges, Function.comp_def, ofLoop_toLoop]

/-- The server's assignment is the client's merge. -/
theorem assignChanges_toDeck (state : PlaybackState) (delta : StateDelta) :
    Server.assignChanges state.toDeck delta.toChanges = (state.merge delta).toDeck := by
  obtain ⟨deck, trackId, playing, position, gain, rate, pitch, loop, repeats⟩ := delta
  cases trackId <;> cases gain <;> cases rate <;> cases pitch <;> cases loop <;> rfl

theorem toDeck_default : PlaybackState.toDeck {} = Server.defaultDeckState := by
  have one : (Single.ofDouble 1).value = 1 := Single.representable_value (by
    exact_mod_cast representable_intCast 1 (by decide))
  have zero : (Single.ofDouble 0).value = 0 := Single.representable_value (by
    exact_mod_cast representable_intCast 0 (by decide))
  simp [PlaybackState.toDeck, Server.defaultDeckState, trackIdOfText, one, zero]

section Accepting

theorem validateField_of_lookup {Source Value : Type} {fields : Server.Fields} {key : String}
    {source : Option Source} {encode : Source → JsValue}
    {validate : JsValue → Except String Value} {decode : Source → Value}
    (found : fields.lookup (js key) = source.map encode)
    (accepted : ∀ x, source = some x → validate (encode x) = .ok (decode x)) :
    Server.validateField fields key validate = .ok (source.map decode) := by
  cases source with
  | none => simp [Server.validateField, found]
  | some x => simp [Server.validateField, found, accepted x rfl, Except.map]

theorem validateTrackId_asJs {text : String}
    (valid : ∀ id, trackIdOfText text = some id → Server.isValidTrackId id = true) :
    Server.validateTrackId (trackIdToVar text).asJs = .ok (trackIdOfText text) := by
  unfold trackIdToVar trackIdOfText
  by_cases empty : text = ""
  · simp [empty, Server.validateTrackId]
  · have accepted : Server.isValidTrackId (js text) = true := valid (js text) (by
      simp [trackIdOfText, empty])
    simp [empty, Server.validateTrackId, accepted]

theorem validateNumericField_asJs {range : Range} {value : ℚ} (holds : range.Holds value)
    (name : String) :
    Server.validateNumericField name range (Var.asJs (.number value)) = .ok value := by
  rw [asJs_number, Server.validateNumericField_ok_iff]
  exact ⟨rfl, holds⟩

theorem validateLoop_asJs {loop : Option LoopPoints}
    (valid : ∀ points, loop = some points → points.toLoop.Valid) :
    Server.validateLoop (loopToVar loop).asJs = .ok (loop.map LoopPoints.toLoop) := by
  cases loop with
  | none => simp [loopToVar, Server.validateLoop]
  | some points =>
      have bounds := valid points rfl
      have start : 0 ≤ points.inSeconds := bounds.start
      have ordered : points.inSeconds < points.outSeconds := bounds.ordered
      have stop : points.outSeconds ≤ 86400 := bounds.stop
      have inside : Server.FieldRange.loopSeconds.Holds points.inSeconds ∧
          Server.FieldRange.loopSeconds.Holds points.outSeconds :=
        ⟨⟨start, ordered.le.trans stop⟩, ⟨start.trans ordered.le, stop⟩⟩
      simp [loopToVar, Server.validateLoop, Server.hasExactKeys, Server.hasField, List.lookup_cons,
        Json.number, Server.validateLoopBounds, inside.1, inside.2, ordered, LoopPoints.toLoop]

theorem lookup_asJs (fields : Properties) (key : String) :
    (fields.map fun field => (js field.1, field.2.asJs)).lookup (js key) =
      (fields.lookup key).map Var.asJs :=
  AssocList.lookup_map_key js_injective key Var.asJs fields

/-- The fields of a delta whose values are in range pass every check. -/
theorem knownChangesChecked_of_lookup {fields : Server.Fields} {delta : StateDelta}
    (valid : delta.toChanges.Valid)
    (found : ∀ key ∈ stateKeys,
      fields.lookup (js key) = ((deltaFields delta).lookup key).map Var.asJs) :
    Server.KnownChangesChecked fields delta.toChanges := by
  simp only [stateKeys, List.forall_mem_cons, deltaFields, List.lookup_append,
    AssocList.lookup_toList_map, String.reduceEq, ↓reduceIte, Option.none_or, Option.or_none,
    Option.map_map] at found
  obtain ⟨trackId, playing, positionSeconds, gain, playbackRate, pitchOffsetSemitones, loop,
    repeats, _⟩ := found
  have within {range : Range} (name : String) (source : Option Single)
      (holds : ∀ value, source.map (·.value) = some value → range.Holds value) :
      ∀ single, source = some single →
        Server.validateNumericField name range (Var.asJs (.number single.value)) =
          .ok single.value := by
    intro single present
    refine validateNumericField_asJs (holds single.value ?_) name
    rw [present]
    rfl
  have bool (name : String) (value : Bool) :
      Server.validateBoolean name (Var.asJs (.bool value)) = .ok (id value) := by
    rw [asJs_bool]
    rfl
  exact {
    trackId := validateField_of_lookup trackId fun text present =>
      validateTrackId_asJs fun id named => valid.trackId id (by
        simp [StateDelta.toChanges, present, named])
    playing := (validateField_of_lookup playing fun value _ => bool _ value).trans (by
      rw [Option.map_id]
      rfl)
    repeats := (validateField_of_lookup repeats fun value _ => bool _ value).trans (by
      rw [Option.map_id]
      rfl)
    positionSeconds := (validateField_of_lookup positionSeconds fun value present =>
      validateNumericField_asJs (valid.positionSeconds value present) _).trans (by
        rw [Option.map_id']
        rfl)
    gain := validateField_of_lookup gain (within _ _ valid.gain)
    playbackRate := validateField_of_lookup playbackRate (within _ _ valid.playbackRate)
    pitchOffsetSemitones :=
      validateField_of_lookup pitchOffsetSemitones (within _ _ valid.pitchOffsetSemitones)
    loop := validateField_of_lookup loop fun value present =>
      validateLoop_asJs fun points given => valid.loop points.toLoop (by
        simp [StateDelta.toChanges, present, given])
    starts := fun starts => valid.starts starts.1 starts.2 }

theorem deltaFields_ne_nil {delta : StateDelta} (present : delta.empty = false) :
    deltaFields delta ≠ [] := by
  intro none
  simp only [deltaFields, List.append_eq_nil_iff, List.map_eq_nil_iff, Option.toList_eq_nil_iff]
    at none
  simp [StateDelta.empty, none] at present

theorem mem_stateKeys_of_mem_deltaFields {delta : StateDelta} {field : String × Var}
    (member : field ∈ deltaFields delta) : field.1 ∈ stateKeys := by
  simp only [deltaFields, List.mem_append, List.mem_map] at member
  rcases member with ((((((⟨_, _, rfl⟩ | ⟨_, _, rfl⟩) | ⟨_, _, rfl⟩) | ⟨_, _, rfl⟩) | ⟨_, _, rfl⟩) |
    ⟨_, _, rfl⟩) | ⟨_, _, rfl⟩) | ⟨_, _, rfl⟩ <;> simp [stateKeys]

theorem buildDelta_eq (delta : StateDelta) :
    buildDelta delta = .obj [("type", .str "delta"), ("deck", .str delta.deck.text),
      ("changes", .obj (deltaFields delta))] := by
  have other : ∀ field ∈ deltaFields delta, field.1 ≠ "deck" := by
    intro field member same
    exact deck_not_mem_stateKeys (same ▸ mem_stateKeys_of_mem_deltaFields member)
  have none : (deltaFields delta).filter (·.1 == "deck") = [] :=
    List.filter_eq_nil_iff.mpr fun field member => by simpa using other field member
  have all : (deltaFields delta).filter (·.1 != "deck") = deltaFields delta :=
    List.filter_eq_self.mpr fun field member => by simpa using other field member
  simp [buildDelta, stateDeltaToVar, none, all]

/-- The server accepts a delta of the client whose values are in range. -/
theorem validateDelta_buildDelta {delta : StateDelta} (present : delta.empty = false)
    (valid : delta.toChanges.Valid) :
    Server.validateDelta (buildDelta delta).asJs = .ok (delta.deck, delta.toChanges) := by
  let fields : Server.Fields := (deltaFields delta).map fun field => (js field.1, field.2.asJs)
  have some : fields.isEmpty = false := by
    simpa [fields] using deltaFields_ne_nil present
  have known : (fields.any fun field => !(Server.changeFields.map js).contains field.1) = false := by
    rw [List.any_eq_false]
    intro field member
    obtain ⟨original, given, rfl⟩ := List.mem_map.mp member
    have listed := mem_stateKeys_of_mem_deltaFields given
    simp only [stateKeys, List.mem_cons, List.not_mem_nil, or_false] at listed
    simp [Server.changeFields, listed]
  have checked : Server.validateChanges (.obj fields) = .ok delta.toChanges := by
    simp only [Server.validateChanges, some, known, Bool.false_eq_true, ↓reduceIte]
    exact Server.validateKnownChanges_ok_iff.mpr
      (knownChangesChecked_of_lookup valid fun key _ => lookup_asJs _ key)
  rw [buildDelta_eq, asJs_obj]
  simp only [fields] at checked
  simp [Server.validateDelta, Server.hasExactKeys, Server.hasField, List.lookup_cons, checked]
  rfl

end Accepting

end Client

end DjApp
