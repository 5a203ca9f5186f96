import DjApp.Client.FrameHandling
import DjApp.Server.RoomProperties

/-! What the server accepts, the client applies unchanged: the delta a client parses from
a broadcast, read off the JSON of the message that was accepted. -/

set_option autoImplicit false

namespace DjApp.Client

open Library
open Server (Fields)

section Reading

/-! The values of JSON that has passed the check of its field. -/

def numberOf : JsValue → ℚ
  | .num (.finite value) => value
  | _ => 0

def boolOf : JsValue → Bool
  | .bool value => value
  | _ => false

/-- No track reads as the empty text. -/
def trackOf : JsValue → String
  | .str units => units.toText
  | _ => ""

def loopOf : JsValue → Option LoopPoints
  | .obj fields =>
      some ⟨numberOf ((fields.lookup (js "inSeconds")).getD .null),
        numberOf ((fields.lookup (js "outSeconds")).getD .null)⟩
  | _ => none

/-- Each field is present if its key is, with the value that the key has. -/
def StateDelta.ofFields (deck : DeckId) (fields : Fields) : StateDelta where
  deck := deck
  trackId := (fields.lookup (js "trackId")).map trackOf
  playing := (fields.lookup (js "playing")).map boolOf
  positionSeconds := (fields.lookup (js "positionSeconds")).map numberOf
  gain := (fields.lookup (js "gain")).map fun value => .ofDouble (numberOf value)
  playbackRate := (fields.lookup (js "playbackRate")).map fun value => .ofDouble (numberOf value)
  pitchOffsetSemitones :=
    (fields.lookup (js "pitchOffsetSemitones")).map fun value => .ofDouble (numberOf value)
  loop := (fields.lookup (js "loop")).map loopOf
  repeats := (fields.lookup (js "repeat")).map boolOf

theorem validateField_map {Value Out : Type} {fields : Fields} {key : String}
    {validate : JsValue → Except String Value} {accepted : Option Value}
    (validated : Server.validateField fields key validate = .ok accepted) (convert : Value → Out)
    (read : JsValue → Out)
    (agree : ∀ json value, validate json = .ok value → convert value = read json) :
    accepted.map convert = (fields.lookup (js key)).map read := by
  unfold Server.validateField at validated
  cases found : fields.lookup (js key) with
  | none =>
      rw [found] at validated
      cases validated
      rfl
  | some json =>
      rw [found] at validated
      cases checked : validate json with
      | error reason => simp [checked, Except.map] at validated
      | ok value =>
          simp only [checked, Except.map, Except.ok.injEq] at validated
          subst validated
          exact congrArg some (agree json value checked)

theorem trackOf_validateTrackId {json : JsValue} {trackId : Option JsString}
    (validated : Server.validateTrackId json = .ok trackId) : trackIdText trackId = trackOf json := by
  cases json with
  | null =>
      cases validated
      rfl
  | str units =>
      simp only [Server.validateTrackId] at validated
      split at validated
      · cases validated
        rfl
      · cases validated
  | bool | num | arr | obj => cases validated

theorem boolOf_validateBoolean {name : String} {json : JsValue} {value : Bool}
    (validated : Server.validateBoolean name json = .ok value) : value = boolOf json := by
  cases json with
  | bool actual =>
      cases validated
      rfl
  | null | num | str | arr | obj => cases validated

theorem numberOf_validateNumericField {name : String} {range : Server.Range} {json : JsValue}
    {value : ℚ} (validated : Server.validateNumericField name range json = .ok value) :
    value = numberOf json := by
  obtain ⟨rfl, _⟩ := Server.validateNumericField_ok_iff.mp validated
  rfl

theorem loopOf_validateLoop {json : JsValue} {loop : Option Server.Loop}
    (validated : Server.validateLoop json = .ok loop) : loop.map .ofLoop = loopOf json := by
  cases json with
  | null =>
      cases validated
      rfl
  | obj fields =>
      simp only [Server.validateLoop] at validated
      split at validated
      · split at validated
        · rename_i inSeconds outSeconds inFound outFound
          cases loop with
          | none =>
              unfold Server.validateLoopBounds at validated
              split at validated
              · cases validated
              · split at validated <;> cases validated
          | some points =>
              obtain ⟨rfl, _⟩ := Server.validateLoopBounds_ok_valid validated
              simp [loopOf, inFound, outFound, numberOf, LoopPoints.ofLoop]
        · cases validated
      · cases validated
  | bool | num | str | arr => cases validated

/-- The client's image of accepted changes is what the JSON says. -/
theorem ofChanges_eq_ofFields {fields : Fields} {changes : Server.Changes}
    (checked : Server.KnownChangesChecked fields changes) (deck : DeckId) :
    StateDelta.ofChanges deck changes = .ofFields deck fields := by
  have number {accepted : Option ℚ} {key : String} {range : Server.Range}
      (validated : Server.validateField fields key (Server.validateNumericField key range) =
        .ok accepted) :
      accepted = (fields.lookup (js key)).map numberOf := by
    have read := validateField_map validated id numberOf
      fun json value accepted => numberOf_validateNumericField accepted
    simpa using read
  have truth {accepted : Option Bool} {key : String}
      (validated : Server.validateField fields key (Server.validateBoolean key) = .ok accepted) :
      accepted = (fields.lookup (js key)).map boolOf := by
    have read := validateField_map validated id boolOf
      fun json value accepted => boolOf_validateBoolean accepted
    simpa using read
  have trackId := validateField_map checked.trackId trackIdText trackOf
    fun json value accepted => trackOf_validateTrackId accepted
  have loop := validateField_map checked.loop (·.map .ofLoop) loopOf
    fun json value accepted => loopOf_validateLoop accepted
  simp only [StateDelta.ofChanges, StateDelta.ofFields, trackId, loop, truth checked.playing,
    truth checked.repeats, number checked.positionSeconds, number checked.gain,
    number checked.playbackRate, number checked.pitchOffsetSemitones, Option.map_map,
    Function.comp_def]

theorem validateChanges_ok_fields {value : JsValue} {changes : Server.Changes}
    (accepted : Server.validateChanges value = .ok changes) :
    ∃ fields, value = .obj fields ∧ Server.KnownChangesChecked fields changes := by
  cases value with
  | obj fields =>
      simp only [Server.validateChanges] at accepted
      split at accepted
      · cases accepted
      · split at accepted
        · cases accepted
        · exact ⟨fields, rfl, Server.validateKnownChanges_ok_iff.mp accepted⟩
  | null | bool | num | str | arr => cases accepted

end Reading

/-- Of accepted changes the room broadcasts a delta frame; that frame parses to the fields
of their JSON, and clamping leaves it alone. The object of every deck of a room parses to
that deck in the same way. -/
theorem accepted_changes_apply :
    (∀ config room call deck changes,
      Server.acceptedDelta call (Server.Room.step config room call).2 = some (deck, changes) →
      ∃ source, (Server.Room.step config room call).2.effects =
        (Server.Room.step config room call).1.broadcast
          (.delta (Server.Room.step config room call).1.serverSeq source deck changes)
          (some call.conn)) ∧
      (∀ value changes, Server.validateChanges value = .ok changes →
        ∃ fields, value = .obj fields ∧ ∀ deck serverSeq source,
          parseDeltaMessage (Server.Frame.delta serverSeq source deck changes).toVar =
            .ok (.ofFields deck fields) ∧
          (StateDelta.ofFields deck fields).clamp = .ofFields deck fields) ∧
      ∀ config calls, ∀ entry ∈ (Server.runRoom config calls).decks,
        playbackStateFromVar (Server.deckToJson entry.2).toVar = .ok (.ofDeck entry.2) ∧
        (PlaybackState.ofDeck entry.2).clamp = .ofDeck entry.2 := by
  refine ⟨fun config room call deck changes accepted => ?_, fun value changes accepted => ?_,
    fun config calls entry listed => ?_⟩
  · exact (Server.step_transition config room call).broadcast_accepted accepted
  · have valid := Server.validateChanges_ok_valid accepted
    obtain ⟨fields, rfl, checked⟩ := validateChanges_ok_fields accepted
    refine ⟨fields, rfl, fun deck serverSeq source => ?_⟩
    rw [← ofChanges_eq_ofFields checked deck]
    exact ⟨parseDeltaMessage_delta serverSeq source deck valid, clamp_ofChanges valid deck⟩
  · have valid := (Server.runRoom_valid config calls).decksValid entry listed
    exact ⟨playbackStateFromVar_deckToJson valid, clamp_ofDeck valid⟩

end DjApp.Client
