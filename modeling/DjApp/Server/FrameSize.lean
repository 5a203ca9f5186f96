import DjApp.Protocol.Stringify
import DjApp.Server.FrameJson
import DjApp.Server.RoomTransitions

/-! The size of a frame on the wire, and why every error frame is a small one. -/

set_option autoImplicit false

namespace DjApp.Server

open Library
open Json (byteLength quote stringify byteLength_quote_letters)

/-- `Buffer.byteLength(JSON.stringify(obj), 'utf8')`. -/
def Frame.bytes (frame : Frame) : ℕ := byteLength (stringify frame.asJson)

section Objects

theorem byteLength_object {fields : List (String × JsValue)} (some : fields ≠ []) :
    byteLength (stringify (object fields)) =
      1 + (fields.map fun field =>
        byteLength (quote (js field.1)) + byteLength (stringify field.2) + 2).sum := by
  rw [object, Json.byteLength_obj (by simpa using some), List.map_map]
  rfl

theorem stringify_text (value : String) : stringify (text value) = quote (js value) := by
  rw [text, stringify]

theorem byteLength_text {value : String} (plain : value.toList.all Json.isPlain = true) :
    byteLength (stringify (text value)) = value.length + 2 := by
  rw [stringify_text]
  exact byteLength_quote_letters plain

end Objects

/-- A message of an error that is short enough for any frame. -/
def Brief (message : String) : Prop := byteLength (quote (js message)) ≤ 64

theorem brief_of_plain {message : String} (plain : message.toList.all Json.isPlain = true)
    (short : message.length ≤ 62) : Brief message :=
  (Json.byteLength_quote_letters plain).trans_le (Nat.add_le_add_right short 2)

theorem bytes_error_le (code : ErrorCode) {message : String} (brief : Brief message) :
    (Frame.error code message).bytes ≤ 128 := by
  have keys : byteLength (quote (js "type")) = 6 ∧ byteLength (quote (js "error")) = 7 ∧
      byteLength (quote (js "code")) = 6 ∧ byteLength (quote (js "message")) = 9 :=
    ⟨byteLength_quote_letters (by decide), byteLength_quote_letters (by decide),
      byteLength_quote_letters (by decide), byteLength_quote_letters (by decide)⟩
  have named : byteLength (quote (js code.text)) ≤ 16 := by
    cases code <;> exact (byteLength_quote_letters (by decide)).trans_le (by decide)
  obtain ⟨type, error, codeKey, messageKey⟩ := keys
  unfold Brief at brief
  rw [Frame.bytes, Frame.asJson, byteLength_object (by simp)]
  simp only [List.map_cons, List.map_nil, List.sum_cons, List.sum_nil, stringify_text, type, error,
    codeKey, messageKey]
  omega

section Reasons

theorem bind_eq_error_iff {Error Value Result : Type} {source : Except Error Value}
    {continuation : Value → Except Error Result} {reason : Error} :
    source >>= continuation = .error reason ↔
      source = .error reason ∨ ∃ value, source = .ok value ∧ continuation value = .error reason := by
  cases source with
  | error other => simp [bind, Except.bind]
  | ok value => simp [bind, Except.bind]

theorem brief_validateField {Value : Type} {fields : Fields} {key reason : String}
    {validate : JsValue → Except String Value}
    (brief : ∀ json other, validate json = .error other → Brief other)
    (failed : validateField fields key validate = .error reason) : Brief reason := by
  unfold validateField at failed
  cases found : fields.lookup (js key) with
  | none =>
      rw [found] at failed
      cases failed
  | some json =>
      rw [found] at failed
      cases checked : validate json with
      | ok value => simp [checked, Except.map] at failed
      | error other =>
          simp only [checked, Except.map, Except.error.injEq] at failed
          exact failed ▸ brief json other checked

theorem brief_validateNumericField {name : String} {range : Range}
    (outside : Brief (name ++ " out of range")) (unlike : Brief (name ++ " must be a finite number"))
    (json : JsValue) (reason : String) (failed : validateNumericField name range json = .error reason) :
    Brief reason := by
  unfold validateNumericField at failed
  split at failed
  · split at failed
    · cases failed
    · cases failed
      exact outside
  · cases failed
    exact unlike

theorem brief_validateBoolean {name : String} (unlike : Brief (name ++ " must be a boolean"))
    (json : JsValue) (reason : String) (failed : validateBoolean name json = .error reason) :
    Brief reason := by
  unfold validateBoolean at failed
  split at failed
  · cases failed
  · cases failed
    exact unlike

theorem brief_validateTrackId (json : JsValue) (reason : String)
    (failed : validateTrackId json = .error reason) : Brief reason := by
  have invalid : Brief "invalid trackId" := brief_of_plain (by decide) (by decide)
  unfold validateTrackId at failed
  split at failed
  · cases failed
  · split at failed
    · cases failed
    · cases failed
      exact invalid
  · cases failed
    exact invalid

theorem brief_validateLoopBounds {bounds : Loop} {reason : String}
    (failed : validateLoopBounds bounds = .error reason) : Brief reason := by
  unfold validateLoopBounds at failed
  split at failed
  · cases failed
    exact brief_of_plain (by decide) (by decide)
  · split at failed
    · cases failed
    · cases failed
      exact brief_of_plain (by decide) (by decide)

theorem brief_validateLoop (json : JsValue) (reason : String)
    (failed : validateLoop json = .error reason) : Brief reason := by
  unfold validateLoop at failed
  split at failed
  · cases failed
  · split at failed
    · split at failed
      · exact brief_validateLoopBounds failed
      · cases failed
        exact brief_of_plain (by decide) (by decide)
    · cases failed
      exact brief_of_plain (by decide) (by decide)
  · cases failed
    exact brief_of_plain (by decide) (by decide)

theorem brief_validateKnownChanges {fields : Fields} {reason : String}
    (failed : validateKnownChanges fields = .error reason) : Brief reason := by
  have number {name : String} {range : Range} {other : String}
      (texts : Brief (name ++ " out of range") ∧ Brief (name ++ " must be a finite number"))
      (failed : validateField fields name (validateNumericField name range) = .error other) :
      Brief other :=
    brief_validateField (brief_validateNumericField texts.1 texts.2) failed
  have boolean {name other : String} (unlike : Brief (name ++ " must be a boolean"))
      (failed : validateField fields name (validateBoolean name) = .error other) : Brief other :=
    brief_validateField (brief_validateBoolean unlike) failed
  obtain failed | ⟨_, _, failed⟩ := bind_eq_error_iff.mp failed
  · exact brief_validateField brief_validateTrackId failed
  obtain failed | ⟨_, _, failed⟩ := bind_eq_error_iff.mp failed
  · exact boolean (brief_of_plain (by decide) (by decide)) failed
  obtain failed | ⟨_, _, failed⟩ := bind_eq_error_iff.mp failed
  · exact boolean (brief_of_plain (by decide) (by decide)) failed
  obtain failed | ⟨_, _, failed⟩ := bind_eq_error_iff.mp failed
  · exact number ⟨brief_of_plain (by decide) (by decide), brief_of_plain (by decide) (by decide)⟩ failed
  obtain failed | ⟨_, _, failed⟩ := bind_eq_error_iff.mp failed
  · exact number ⟨brief_of_plain (by decide) (by decide), brief_of_plain (by decide) (by decide)⟩ failed
  obtain failed | ⟨_, _, failed⟩ := bind_eq_error_iff.mp failed
  · exact number ⟨brief_of_plain (by decide) (by decide), brief_of_plain (by decide) (by decide)⟩ failed
  obtain failed | ⟨_, _, failed⟩ := bind_eq_error_iff.mp failed
  · exact number ⟨brief_of_plain (by decide) (by decide), brief_of_plain (by decide) (by decide)⟩ failed
  obtain failed | ⟨_, _, failed⟩ := bind_eq_error_iff.mp failed
  · exact brief_validateField brief_validateLoop failed
  · split at failed
    · cases failed
      exact brief_of_plain (by decide) (by decide)
    · cases failed

theorem brief_validateChanges {json : JsValue} {reason : String}
    (failed : validateChanges json = .error reason) : Brief reason := by
  unfold validateChanges at failed
  split at failed
  · split at failed
    · cases failed
      exact brief_of_plain (by decide) (by decide)
    · split at failed
      · cases failed
        exact brief_of_plain (by decide) (by decide)
      · exact brief_validateKnownChanges failed
  · cases failed
    exact brief_of_plain (by decide) (by decide)

theorem brief_validateDelta {msg : JsValue} {reason : String}
    (failed : validateDelta msg = .error reason) : Brief reason := by
  have malformed : Brief "malformed delta" := brief_of_plain (by decide) (by decide)
  have invalid : Brief "invalid deck" := brief_of_plain (by decide) (by decide)
  unfold validateDelta at failed
  split at failed
  · split at failed
    · split at failed
      · split at failed
        · split at failed
          · split at failed
            · obtain failed | ⟨_, _, failed⟩ := bind_eq_error_iff.mp failed
              · exact brief_validateChanges failed
              · cases failed
            · cases failed
              exact invalid
          · cases failed
            exact invalid
        · cases failed
          exact malformed
      · cases failed
        exact malformed
    · cases failed
      exact malformed
  · cases failed
    exact malformed

theorem brief_validateEnvelope {msg : JsValue} {reason : String}
    (failed : validateEnvelope msg = .error reason) : Brief reason := by
  unfold validateEnvelope at failed
  split at failed
  · split at failed
    · split at failed
      · cases failed
        exact brief_of_plain (by decide) (by decide)
      · split at failed
        · cases failed
          exact brief_of_plain (by decide) (by decide)
        · cases failed
    · cases failed
      exact brief_of_plain (by decide) (by decide)
  · cases failed
    exact brief_of_plain (by decide) (by decide)

end Reasons

section Answers

/-- The codes a call of the room closes with. -/
def handshakeCodes : List ℕ :=
  [CloseCode.badHandshake, CloseCode.versionMismatch, CloseCode.wrongRoom, CloseCode.roomFull,
    CloseCode.internalError]

/-- The errors among the effects of a call are brief, and its closes are a handshake's. -/
structure EffectBounds (effects : List Effect) : Prop where
  brief : ∀ conn code message, .send conn (.error code message) ∈ effects → Brief message
  handshake : ∀ conn code, .close conn code ∈ effects → code ∈ handshakeCodes

theorem effectBounds_nil : EffectBounds [] where
  brief _ _ _ sent := by cases sent
  handshake _ _ closed := by cases closed

theorem effectBounds_send {conn : ConnId} {frame : Frame} {rest : List Effect}
    (other : ∀ code message, frame = .error code message → Brief message)
    (bounds : EffectBounds rest) : EffectBounds (.send conn frame :: rest) where
  brief target code message sent := by
    rcases List.mem_cons.mp sent with same | later
    · exact other code message (Effect.send.inj same).2.symm
    · exact bounds.brief target code message later
  handshake target code closed := by
    rcases List.mem_cons.mp closed with same | later
    · cases same
    · exact bounds.handshake target code later

theorem effectBounds_broadcast (room : Room) {frame : Frame} (except : Option ConnId)
    (other : ∀ code message, frame ≠ .error code message) :
    EffectBounds (room.broadcast frame except) where
  brief conn code message sent := by
    obtain ⟨_, _, _, same⟩ := mem_broadcast_iff.mp sent
    cases same
    exact absurd rfl (other code message)
  handshake conn code closed := by
    obtain ⟨_, _, _, same⟩ := mem_broadcast_iff.mp closed
    cases same

theorem effectBounds_refuse {message : String} (brief : Brief message) (room : Room) (conn : ConnId)
    (code : ErrorCode) : EffectBounds (refuse room conn code message).2.effects := by
  refine effectBounds_send ?_ effectBounds_nil
  rintro sentCode sentMessage ⟨⟩
  exact brief

theorem effectBounds_closeHandshake (room : Room) (conn : ConnId) {code : Nat}
    (listed : code ∈ handshakeCodes) :
    EffectBounds (closeHandshake room conn code).2.effects where
  brief _ _ _ sent := by cases List.mem_singleton.mp sent
  handshake _ _ closed := by
    obtain ⟨⟩ := List.mem_singleton.mp closed
    exact listed

theorem handshakeCloseCode_mem (reason : String) : handshakeCloseCode reason ∈ handshakeCodes := by
  unfold handshakeCloseCode
  split
  · decide
  · split <;> decide

theorem effectBounds_handleHello (config : RoomConfig) (room : Room) (conn : ConnId)
    (msg : JsValue) (draws : Draws) :
    EffectBounds (handleHello config room conn msg draws).2.effects := by
  unfold handleHello
  split
  · exact effectBounds_closeHandshake room conn (handshakeCloseCode_mem _)
  · split
    · exact effectBounds_closeHandshake room conn (by decide)
    · split
      · exact effectBounds_closeHandshake room conn (by decide)
      · exact effectBounds_send (by simp) (effectBounds_broadcast _ _ (by simp))

theorem effectBounds_handleDelta (room : Room) (conn : ConnId) (msg : JsValue) :
    EffectBounds (handleDelta room conn msg).2.effects := by
  unfold handleDelta
  split
  · exact effectBounds_refuse (brief_of_plain (by decide) (by decide)) room conn _
  · split
    · exact effectBounds_refuse (brief_of_plain (by decide) (by decide)) room conn _
    · split
      · exact effectBounds_refuse (brief_validateDelta ‹_›) room conn _
      · split
        · have mine : Brief "only the controller can change playback" := brief_of_plain (by decide) (by decide)
          refine effectBounds_send ?_ (effectBounds_send (by simp [Room.snapshotFrame]) effectBounds_nil)
          rintro code message ⟨⟩
          exact mine
        · exact effectBounds_broadcast _ _ (by simp)

theorem effectBounds_handleMessage (config : RoomConfig) (room : Room) (conn : ConnId)
    (msg : JsValue) (draws : Draws) :
    EffectBounds (handleMessage config room conn msg draws).2.effects := by
  have stranger : Brief "not a room member" := brief_of_plain (by decide) (by decide)
  unfold handleMessage
  split
  · split
    · exact effectBounds_closeHandshake room conn (by decide)
    · exact effectBounds_refuse (brief_of_plain (by decide) (by decide)) room conn _
  · split
    · split
      · exact effectBounds_handleHello config room conn msg draws
      · exact effectBounds_closeHandshake room conn (by decide)
    · split
      · exact effectBounds_refuse (brief_validateEnvelope ‹_›) room conn _
      · exact effectBounds_refuse (brief_of_plain (by decide) (by decide)) room conn _
      · unfold handleClaimControl
        split
        · exact effectBounds_refuse stranger room conn _
        · split
          · exact effectBounds_refuse stranger room conn _
          · split
            · exact effectBounds_refuse (brief_of_plain (by decide) (by decide)) room conn _
            · exact effectBounds_broadcast _ _ (by simp)
      · unfold handleReleaseControl
        split
        · exact effectBounds_refuse stranger room conn _
        · split
          · exact effectBounds_refuse stranger room conn _
          · split
            · exact effectBounds_refuse (brief_of_plain (by decide) (by decide)) room conn _
            · exact effectBounds_broadcast _ _ (by simp)
      · exact effectBounds_handleDelta room conn msg
      · exact effectBounds_send (by simp [Room.snapshotFrame]) effectBounds_nil

theorem effectBounds_step (config : RoomConfig) (room : Room) (call : Call) :
    EffectBounds (room.step config call).2.effects := by
  cases call with
  | message conn msg draws => exact effectBounds_handleMessage config room conn msg draws
  | disconnect conn =>
      unfold Room.step handleDisconnect
      dsimp only
      split
      · exact effectBounds_nil
      · split
        · exact effectBounds_broadcast _ _ (by simp)
        · exact effectBounds_nil

end Answers

end DjApp.Server
