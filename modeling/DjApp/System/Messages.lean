import DjApp.System.World

/-! What the room makes of each message that a client sends. -/

set_option autoImplicit false

namespace DjApp.System

open Library
open Server (ConnId Frame Room RoomConfig Registration IsMember MessageType)
open Client (ClientMessage StateDelta)

def messageTypeOf : ClientMessage → MessageType
  | .hello _ _ => .hello
  | .claimControl => .claimControl
  | .releaseControl => .releaseControl
  | .delta _ => .delta
  | .requestSnapshot => .requestSnapshot

theorem asJs_delta (delta : StateDelta) :
    (ClientMessage.delta delta).asJs = (Client.buildDelta delta).asJs := rfl

theorem isPlainObject_asJs (message : ClientMessage) :
    Server.isPlainObject message.asJs = true := by
  cases message with
  | delta delta =>
      rw [asJs_delta, Client.buildDelta_eq, asJs_obj]
      rfl
  | hello | claimControl | releaseControl | requestSnapshot => rfl

theorem typeField?_asJs (message : ClientMessage) :
    Server.typeField? message.asJs = some (js (messageTypeOf message).text) := by
  cases message with
  | delta delta =>
      rw [asJs_delta, Client.buildDelta_eq, asJs_obj]
      simp [Server.typeField?, messageTypeOf, MessageType.text]
  | hello | claimControl | releaseControl | requestSnapshot =>
      simp [ClientMessage.asJs, ClientMessage.toVar, Server.typeField?, messageTypeOf,
        MessageType.text, Client.buildClaimControl, Client.buildReleaseControl,
        Client.buildRequestSnapshot]

/-- Whatever the digits of a message stand for, its type is read. -/
theorem typeField?_toJs (digits : ℚ → ℚ) (message : ClientMessage) :
    Server.typeField? (message.toJs digits) = some (js (messageTypeOf message).text) := by
  cases message with
  | delta delta =>
      change Server.typeField? ((Client.buildDelta delta).toJs digits) = _
      rw [Client.buildDelta_eq, Var.toJs, Json.mapNumbers, asJs_obj]
      simp [Json.mapNumbersFields, Json.mapNumbers, Server.typeField?, messageTypeOf,
        MessageType.text]
  | hello | claimControl | releaseControl | requestSnapshot => rfl

theorem validateEnvelope_asJs (message : ClientMessage) :
    Server.validateEnvelope message.asJs = .ok (messageTypeOf message) := by
  cases message with
  | delta delta =>
      rw [asJs_delta, Client.buildDelta_eq, asJs_obj]
      simp [Server.validateEnvelope, Server.messageTypes, Server.fieldlessTypes, messageTypeOf,
        MessageType.text]
  | hello | claimControl | releaseControl | requestSnapshot =>
      simp [ClientMessage.asJs, ClientMessage.toVar, Server.validateEnvelope, Server.messageTypes,
        Server.fieldlessTypes, Server.hasExactKeys, Server.hasField, messageTypeOf,
        MessageType.text, Client.buildClaimControl, Client.buildReleaseControl,
        Client.buildRequestSnapshot]

/-- The only messages of a client that pass as deltas are its deltas, unchanged. -/
theorem validateDelta_asJs {message : ClientMessage} (publishable : message.Publishable)
    {deck : DeckId} {changes : Server.Changes}
    (validated : Server.validateDelta message.asJs = .ok (deck, changes)) :
    ∃ delta, message = .delta delta ∧ delta.deck = deck ∧ delta.toChanges = changes := by
  have typed := (Server.validateDelta_ok validated).1
  rw [typeField?_asJs] at typed
  have named := Server.MessageType.text_injective
    (js_injective (Option.some.inj typed) : _ = MessageType.text .delta)
  cases message with
  | delta delta =>
      have accepted := Client.validateDelta_buildDelta publishable.present publishable.valid
      rw [asJs_delta, accepted] at validated
      cases validated
      exact ⟨delta, rfl, rfl, rfl⟩
  | hello | claimControl | releaseControl | requestSnapshot => cases named

section Members

variable (config : RoomConfig) {room : Room} {conn : ConnId} {registration : Registration}
  (member : IsMember room conn registration) (draws : Server.Draws)

include member

/-- A member's message goes to the handler of its type. -/
theorem step_member (message : ClientMessage) :
    room.step config (.message conn message.asJs draws) =
      match messageTypeOf message with
      | .hello => Server.refuse room conn .badMessage "already registered"
      | .claimControl => Server.handleClaimControl room conn
      | .releaseControl => Server.handleReleaseControl room conn
      | .delta => Server.handleDelta room conn message.asJs
      | .requestSnapshot => Server.handleRequestSnapshot room conn := by
  simp only [Room.step, Server.handleMessage, isPlainObject_asJs, member.registered,
    validateEnvelope_asJs, Bool.not_true, Bool.false_eq_true, Option.isNone_some, ↓reduceIte]
  cases messageTypeOf message <;> rfl

theorem step_hello_member (name code : String) :
    room.step config (.message conn (ClientMessage.hello name code).asJs draws) =
      Server.refuse room conn .badMessage "already registered" :=
  step_member config member draws (.hello name code)

theorem step_claimControl_free (unclaimed : room.controllerId = none) :
    room.step config (.message conn (ClientMessage.asJs .claimControl) draws) =
      ({ room with controllerId := some registration.id },
        ⟨room.broadcast (.roleChanged registration.id .controller), { ok := true }⟩) := by
  have live : room.isMember conn = true :=
    (Server.isMember_eq_true_iff member.registered).mpr member
  rw [step_member config member]
  simp [messageTypeOf, Server.handleClaimControl, member.registered, live, unclaimed]

theorem step_requestSnapshot :
    room.step config (.message conn (ClientMessage.asJs .requestSnapshot) draws) =
      (room, ⟨[.send conn room.snapshotFrame], { ok := true }⟩) := by
  rw [step_member config member]
  rfl

section Controller

variable (controls : room.controllerId = some registration.id)

include controls

theorem step_claimControl_controller :
    room.step config (.message conn (ClientMessage.asJs .claimControl) draws) =
      Server.refuse room conn .controlTaken "control is already claimed" := by
  have live : room.isMember conn = true :=
    (Server.isMember_eq_true_iff member.registered).mpr member
  rw [step_member config member]
  simp [messageTypeOf, Server.handleClaimControl, member.registered, live, controls]

theorem step_releaseControl_controller :
    room.step config (.message conn (ClientMessage.asJs .releaseControl) draws) =
      ({ room with controllerId := none },
        ⟨room.broadcast (.roleChanged registration.id .observer), { ok := true }⟩) := by
  have live : room.isMember conn = true :=
    (Server.isMember_eq_true_iff member.registered).mpr member
  rw [step_member config member]
  simp [messageTypeOf, Server.handleReleaseControl, member.registered, live, controls]

theorem step_delta_controller {delta : StateDelta} (publishable : delta.Publishable) :
    room.step config (.message conn (ClientMessage.delta delta).asJs draws) =
      (Server.applyDelta room delta.deck delta.toChanges,
        ⟨(Server.applyDelta room delta.deck delta.toChanges).broadcast
            (.delta (room.serverSeq + 1) registration.id delta.deck delta.toChanges) (some conn),
          { ok := true }⟩) := by
  have live : room.isMember conn = true :=
    (Server.isMember_eq_true_iff member.registered).mpr member
  have accepted := Client.validateDelta_buildDelta publishable.present publishable.valid
  rw [step_member config member]
  simp only [messageTypeOf, Server.handleDelta, member.registered, live, asJs_delta, accepted,
    controls, Bool.not_true, Bool.false_eq_true, ↓reduceIte, ne_eq, not_true_eq_false]
  rfl

end Controller

end Members

end DjApp.System
