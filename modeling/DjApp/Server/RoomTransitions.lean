import DjApp.Server.Room
import DjApp.Server.ValidateProperties

/-! Everything a call can do to the room, said once. Every invariant of the room
is derived from this list, and no later proof opens a handler. -/

set_option autoImplicit false

namespace DjApp.Server

open Library

/-- The delta a call applies to the room, if it is an accepted one. -/
def acceptedDelta (call : Call) (outcome : Outcome) : Option (DeckId × Changes) :=
  match call with
  | .message _ msg _ =>
      if outcome.result.ok then
        match validateDelta msg with
        | .ok delta => some delta
        | .error _ => none
      else none
  | .disconnect _ => none

/-- The effects of a call that leaves the room as it is: they address the caller
alone. One that never registered is only ever closed, one that has is never. -/
inductive Answer (room : Room) (conn : ConnId) : Effect → Prop where
  | close (unregistered : room.conns conn = none) (code : Nat) : Answer room conn (.close conn code)
  | error (registered : room.conns conn ≠ none) (code : ErrorCode) (message : String) :
      Answer room conn (.send conn (.error code message))
  | snapshot (registered : room.conns conn ≠ none) : Answer room conn (.send conn room.snapshotFrame)

/-- A connection that is the live entry of the map for the id it carries. -/
structure IsMember (room : Room) (conn : ConnId) (registration : Registration) : Prop where
  registered : room.conns conn = some registration
  live : room.clients.lookup registration.id = some conn

inductive Transition (config : RoomConfig) (room : Room) : Call → Handled → Prop where
  | idle (call : Call) (outcome : Outcome)
      (answers : ∀ effect ∈ outcome.effects, Answer room call.conn effect)
      (noDelta : acceptedDelta call outcome = none) :
      Transition config room call (room, outcome)
  | join (conn : ConnId) (msg : JsValue) (draws : Draws) (id : ClientId) (name : JsString)
      (unregistered : room.conns conn = none) (fresh : room.clients.lookup id = none)
      (free : room.clients.length < config.maxClients) (named : ValidName name)
      (isHello : typeField? msg = some (js "hello")) :
      Transition config room (.message conn msg draws) (welcome room conn id name)
  | claim (conn : ConnId) (msg : JsValue) (draws : Draws) (registration : Registration)
      (member : IsMember room conn registration) (unclaimed : room.controllerId = none)
      (isClaim : typeField? msg = some (js "claimControl")) :
      Transition config room (.message conn msg draws)
        ({ room with controllerId := some registration.id },
          ⟨room.broadcast (.roleChanged registration.id .controller), { ok := true }⟩)
  | release (conn : ConnId) (msg : JsValue) (draws : Draws) (registration : Registration)
      (member : IsMember room conn registration)
      (controls : room.controllerId = some registration.id)
      (isRelease : typeField? msg = some (js "releaseControl")) :
      Transition config room (.message conn msg draws)
        ({ room with controllerId := none },
          ⟨room.broadcast (.roleChanged registration.id .observer), { ok := true }⟩)
  | delta (conn : ConnId) (msg : JsValue) (draws : Draws) (registration : Registration)
      (deck : DeckId) (changes : Changes) (member : IsMember room conn registration)
      (controls : room.controllerId = some registration.id)
      (validated : validateDelta msg = .ok (deck, changes)) :
      Transition config room (.message conn msg draws)
        (applyDelta room deck changes,
          ⟨(applyDelta room deck changes).broadcast
              (.delta (room.serverSeq + 1) registration.id deck changes) (some conn),
            { ok := true }⟩)
  | leave (conn : ConnId) (registration : Registration)
      (member : IsMember room conn registration) :
      Transition config room (.disconnect conn)
        (room.remove registration.id,
          ⟨(room.remove registration.id).broadcast (.peerLeft registration.id), { ok := true }⟩)

/-- A broadcast reaches the connections in the map, the excepted one apart. -/
theorem mem_broadcast_iff {room : Room} {frame : Frame} {except : Option ConnId}
    {effect : Effect} :
    effect ∈ room.broadcast frame except ↔
      ∃ conn ∈ room.clients.map (·.2), some conn ≠ except ∧ effect = .send conn frame := by
  simp only [Room.broadcast, List.mem_map, List.mem_filter, bne_iff_ne, ne_eq]
  constructor
  · rintro ⟨conn, ⟨present, other⟩, rfl⟩
    exact ⟨conn, present, other, rfl⟩
  · rintro ⟨conn, present, other, rfl⟩
    exact ⟨conn, ⟨present, other⟩, rfl⟩

theorem isMember_eq_true_iff {room : Room} {conn : ConnId} {registration : Registration}
    (registered : room.conns conn = some registration) :
    room.isMember conn = true ↔ IsMember room conn registration := by
  simp only [Room.isMember, registered, beq_iff_eq]
  exact ⟨fun live => ⟨registered, live⟩, fun member => member.live⟩

private theorem noDelta_of_type {conn : ConnId} {msg : JsValue} {draws : Draws} {outcome : Outcome}
    (type : MessageType) (typed : typeField? msg = some (js type.text)) (other : type ≠ .delta) :
    acceptedDelta (.message conn msg draws) outcome = none := by
  simp only [acceptedDelta]
  split
  · split
    · rename_i delta accepted
      obtain ⟨deck, changes⟩ := delta
      obtain ⟨isDelta, _⟩ := validateDelta_ok accepted
      have same : js type.text = js MessageType.delta.text := Option.some.inj (typed.symm.trans isDelta)
      exact absurd (MessageType.text_injective (js_injective same)) other
    · rfl
  · rfl

private theorem close_transition (config : RoomConfig) (room : Room) (conn : ConnId)
    (msg : JsValue) (draws : Draws) (unregistered : room.conns conn = none) (code : Nat) :
    Transition config room (.message conn msg draws) (closeHandshake room conn code) := by
  refine .idle _ _ ?_ rfl
  intro effect member
  obtain rfl := List.mem_singleton.mp member
  exact .close unregistered code

private theorem refuse_transition (config : RoomConfig) (room : Room) (conn : ConnId)
    (msg : JsValue) (draws : Draws) (registered : room.conns conn ≠ none) (code : ErrorCode)
    (message : String) :
    Transition config room (.message conn msg draws) (refuse room conn code message) := by
  refine .idle _ _ ?_ rfl
  intro effect member
  obtain rfl := List.mem_singleton.mp member
  exact .error registered code message

theorem allocateClientId_fresh {room : Room} {draws : Draws} {id : ClientId}
    (allocated : room.allocateClientId draws = some id) : room.clients.lookup id = none := by
  have unused := List.find?_some allocated
  simpa using unused

private theorem handleHello_transition (config : RoomConfig) (room : Room) (conn : ConnId)
    (msg : JsValue) (draws : Draws) (unregistered : room.conns conn = none) :
    Transition config room (.message conn msg draws) (handleHello config room conn msg draws) := by
  unfold handleHello
  split
  · exact close_transition _ _ _ _ _ unregistered _
  · rename_i hello accepted
    obtain ⟨isHello, named, _⟩ := validateHello_ok accepted
    split
    · exact close_transition _ _ _ _ _ unregistered _
    · split
      · exact close_transition _ _ _ _ _ unregistered _
      · rename_i notFull _ id allocated
        exact .join conn msg draws id hello.name unregistered (allocateClientId_fresh allocated)
          (Nat.lt_of_not_le notFull) named isHello

private theorem handleClaimControl_transition (config : RoomConfig) (room : Room) (conn : ConnId)
    (msg : JsValue) (draws : Draws) (registration : Registration)
    (registered : room.conns conn = some registration)
    (typed : typeField? msg = some (js MessageType.claimControl.text)) :
    Transition config room (.message conn msg draws) (handleClaimControl room conn) := by
  have known : room.conns conn ≠ none := by simp [registered]
  simp only [handleClaimControl, registered]
  split
  · exact refuse_transition _ _ _ _ _ known _ _
  · split
    · exact refuse_transition _ _ _ _ _ known _ _
    · rename_i live unclaimed
      have member := (isMember_eq_true_iff registered).mp (by simpa using live)
      exact .claim conn msg draws registration member (by simpa using unclaimed) typed

private theorem handleReleaseControl_transition (config : RoomConfig) (room : Room) (conn : ConnId)
    (msg : JsValue) (draws : Draws) (registration : Registration)
    (registered : room.conns conn = some registration)
    (typed : typeField? msg = some (js MessageType.releaseControl.text)) :
    Transition config room (.message conn msg draws) (handleReleaseControl room conn) := by
  have known : room.conns conn ≠ none := by simp [registered]
  simp only [handleReleaseControl, registered]
  split
  · exact refuse_transition _ _ _ _ _ known _ _
  · split
    · exact refuse_transition _ _ _ _ _ known _ _
    · rename_i live controls
      have member := (isMember_eq_true_iff registered).mp (by simpa using live)
      exact .release conn msg draws registration member (by simpa using controls) typed

private theorem handleDelta_transition (config : RoomConfig) (room : Room) (conn : ConnId)
    (msg : JsValue) (draws : Draws) (registration : Registration)
    (registered : room.conns conn = some registration) :
    Transition config room (.message conn msg draws) (handleDelta room conn msg) := by
  have known : room.conns conn ≠ none := by simp [registered]
  simp only [handleDelta, registered]
  split
  · exact refuse_transition _ _ _ _ _ known _ _
  · rename_i live
    have member := (isMember_eq_true_iff registered).mp (by simpa using live)
    split
    · exact refuse_transition _ _ _ _ _ known _ _
    · rename_i deck changes validated
      split
      · refine .idle _ _ ?_ rfl
        intro effect included
        simp only [List.mem_cons, List.not_mem_nil, or_false] at included
        rcases included with rfl | rfl
        · exact .error known _ _
        · exact .snapshot known
      · rename_i controls
        have controls : room.controllerId = some registration.id := by
          simpa [eq_comm] using controls
        exact .delta conn msg draws registration deck changes member controls validated

private theorem handleRequestSnapshot_transition (config : RoomConfig) (room : Room)
    (conn : ConnId) (msg : JsValue) (draws : Draws) (registered : room.conns conn ≠ none)
    (typed : typeField? msg = some (js MessageType.requestSnapshot.text)) :
    Transition config room (.message conn msg draws) (handleRequestSnapshot room conn) := by
  refine .idle _ _ ?_ (noDelta_of_type _ typed (by decide))
  intro effect member
  obtain rfl := List.mem_singleton.mp member
  exact .snapshot registered

theorem handleMessage_transition (config : RoomConfig) (room : Room) (conn : ConnId)
    (msg : JsValue) (draws : Draws) :
    Transition config room (.message conn msg draws) (handleMessage config room conn msg draws) := by
  unfold handleMessage
  cases registered : room.conns conn with
  | none =>
      simp only [Option.isNone_none, ↓reduceIte]
      split
      · exact close_transition _ _ _ _ _ registered _
      · split
        · exact handleHello_transition config room conn msg draws registered
        · exact close_transition _ _ _ _ _ registered _
  | some registration =>
      have known : room.conns conn ≠ none := by simp [registered]
      simp only [Option.isNone_some, Bool.false_eq_true, ↓reduceIte]
      split
      · exact refuse_transition _ _ _ _ _ known _ _
      · split
        · exact refuse_transition _ _ _ _ _ known _ _
        · exact refuse_transition _ _ _ _ _ known _ _
        · rename_i enveloped
          exact handleClaimControl_transition _ _ _ _ _ registration registered
            (validateEnvelope_ok enveloped)
        · rename_i enveloped
          exact handleReleaseControl_transition _ _ _ _ _ registration registered
            (validateEnvelope_ok enveloped)
        · exact handleDelta_transition _ _ _ _ _ registration registered
        · rename_i enveloped
          exact handleRequestSnapshot_transition _ _ _ _ _ known (validateEnvelope_ok enveloped)

theorem handleDisconnect_transition (config : RoomConfig) (room : Room) (conn : ConnId) :
    Transition config room (.disconnect conn) (handleDisconnect room conn) := by
  unfold handleDisconnect
  cases registered : room.conns conn with
  | none => exact .idle _ _ (by simp) rfl
  | some registration =>
      dsimp only
      split
      · rename_i live
        exact .leave conn registration ((isMember_eq_true_iff registered).mp live)
      · exact .idle _ _ (by simp) rfl

/-- Every call makes one of the listed transitions. -/
theorem step_transition (config : RoomConfig) (room : Room) (call : Call) :
    Transition config room call (room.step config call) := by
  cases call with
  | message conn msg draws => exact handleMessage_transition config room conn msg draws
  | disconnect conn => exact handleDisconnect_transition config room conn

theorem acceptedDelta_join {conn : ConnId} {msg : JsValue} {draws : Draws} {outcome : Outcome}
    (isHello : typeField? msg = some (js "hello")) :
    acceptedDelta (.message conn msg draws) outcome = none :=
  noDelta_of_type .hello isHello (by decide)

theorem acceptedDelta_claim {conn : ConnId} {msg : JsValue} {draws : Draws} {outcome : Outcome}
    (isClaim : typeField? msg = some (js "claimControl")) :
    acceptedDelta (.message conn msg draws) outcome = none :=
  noDelta_of_type .claimControl isClaim (by decide)

theorem acceptedDelta_release {conn : ConnId} {msg : JsValue} {draws : Draws} {outcome : Outcome}
    (isRelease : typeField? msg = some (js "releaseControl")) :
    acceptedDelta (.message conn msg draws) outcome = none :=
  noDelta_of_type .releaseControl isRelease (by decide)

theorem acceptedDelta_delta (conn : ConnId) {msg : JsValue} (draws : Draws) {outcome : Outcome}
    {delta : DeckId × Changes} (validated : validateDelta msg = .ok delta)
    (accepted : outcome.result.ok = true) :
    acceptedDelta (.message conn msg draws) outcome = some delta := by
  simp [acceptedDelta, validated, accepted]

/-- An accepted delta is broadcast to all but its sender, and nothing else is sent. -/
theorem Transition.broadcast_accepted {config : RoomConfig} {room : Room} {call : Call}
    {handled : Handled} (transition : Transition config room call handled) {deck : DeckId}
    {changes : Changes} (accepted : acceptedDelta call handled.2 = some (deck, changes)) :
    ∃ source, handled.2.effects =
      handled.1.broadcast (.delta handled.1.serverSeq source deck changes) (some call.conn) := by
  cases transition with
  | idle call outcome answers noDelta =>
      rw [noDelta] at accepted
      cases accepted
  | join conn msg draws id name unregistered fresh free named isHello =>
      rw [acceptedDelta_join isHello] at accepted
      cases accepted
  | claim conn msg draws registration member unclaimed isClaim =>
      rw [acceptedDelta_claim isClaim] at accepted
      cases accepted
  | release conn msg draws registration member controls isRelease =>
      rw [acceptedDelta_release isRelease] at accepted
      cases accepted
  | delta conn msg draws registration own given member controls validated =>
      rw [acceptedDelta_delta conn draws validated rfl] at accepted
      cases accepted
      exact ⟨registration.id, rfl⟩
  | leave conn registration member => cases accepted

end DjApp.Server
