import DjApp.Server.RoomTransitions

/-! Connections that are not members cannot interfere with the room: their calls may
be deleted from any run, and a failed handshake learns nothing of the room's state. -/

set_option autoImplicit false

namespace DjApp.Server

open Library

def Effect.conn : Effect → ConnId
  | .send conn _ => conn
  | .close conn _ => conn

/-- A frame of a connection that is a member neither before nor after it, or the
disconnect of a connection that has departed already. -/
def isOutside (config : RoomConfig) (room : Room) (call : Call) : Bool :=
  match call with
  | .message conn _ _ => !room.isMember conn && !(room.step config call).1.isMember conn
  | .disconnect conn => (room.conns conn).isSome && !room.isMember conn

/-- What a connection receives from a history while it is a member. -/
def effectsWhileMember (conn : ConnId) (history : List Entry) : List Effect :=
  history.flatMap fun row =>
    if row.before.isMember conn || row.after.isMember conn then
      row.output.effects.filter (·.conn = conn)
    else []

private theorem isMember_of_isMember {room : Room} {conn : ConnId} {registration : Registration}
    (member : IsMember room conn registration) : room.isMember conn = true :=
  (isMember_eq_true_iff member.registered).mpr member

private theorem isMember_register {room : Room} {conn : ConnId} {id : ClientId} {name : JsString}
    (fresh : room.clients.lookup id = none) : (room.register conn id name).isMember conn = true := by
  simp [Room.isMember, Room.register, List.lookup_append, fresh]

/-- A call from outside changes nothing and is answered, if at all, to its caller. -/
theorem Transition.outside {config : RoomConfig} {room : Room} {call : Call} {handled : Handled}
    (transition : Transition config room call handled) (stepped : room.step config call = handled)
    (outside : isOutside config room call = true) :
    handled.1 = room ∧ ∀ effect ∈ handled.2.effects, effect.conn = call.conn := by
  cases transition with
  | idle call outcome answers noDelta =>
      refine ⟨rfl, fun effect member => ?_⟩
      cases answers effect member with
      | close | error | snapshot => rfl
  | join conn msg draws id name unregistered fresh free named isHello =>
      have joins : (room.step config (.message conn msg draws)).1.isMember conn = true := by
        rw [stepped]
        exact isMember_register fresh
      simp [isOutside, joins] at outside
  | claim conn msg draws registration member unclaimed isClaim =>
      simp [isOutside, isMember_of_isMember member] at outside
  | release conn msg draws registration member controls isRelease =>
      simp [isOutside, isMember_of_isMember member] at outside
  | delta conn msg draws registration deck changes member controls validated =>
      simp [isOutside, isMember_of_isMember member] at outside
  | leave conn registration member =>
      simp [isOutside, isMember_of_isMember member] at outside

theorem step_outside {config : RoomConfig} {room : Room} {call : Call}
    (outside : isOutside config room call = true) :
    (room.step config call).1 = room ∧
      ∀ effect ∈ (room.step config call).2.effects, effect.conn = call.conn :=
  (step_transition config room call).outside rfl outside

private theorem isMember_of_outside {config : RoomConfig} {room : Room} {call : Call}
    (outside : isOutside config room call = true) : room.isMember call.conn = false := by
  cases call <;> simp_all [isOutside, Call.conn]

/-- An entry from outside sends a member nothing. -/
theorem effectsWhileMember_outside {config : RoomConfig} {room : Room} {call : Call}
    (outside : isOutside config room call = true) (conn : ConnId) :
    effectsWhileMember conn [Machine.entry (Room.step config) room call] = [] := by
  obtain ⟨unchanged, addressed⟩ := step_outside outside
  have unheard := isMember_of_outside outside
  by_cases caller : call.conn = conn
  · subst caller
    simp [effectsWhileMember, Machine.entry, unchanged, unheard]
  · have others : (room.step config call).2.effects.filter (·.conn = conn) = [] := by
      apply List.filter_eq_nil_iff.mpr
      intro effect member
      rw [addressed effect member]
      simpa using caller
    simp [effectsWhileMember, Machine.entry, others]

theorem effectsWhileMember_cons (conn : ConnId) (row : Entry) (history : List Entry) :
    effectsWhileMember conn (row :: history) =
      effectsWhileMember conn [row] ++ effectsWhileMember conn history := by
  simp [effectsWhileMember]

/-- Deleting the calls from outside changes no frame a member receives. -/
theorem effectsWhileMember_relevant (config : RoomConfig) (conn : ConnId) (room : Room)
    (calls : List Call) :
    effectsWhileMember conn (Machine.trace (Room.step config) room
        (Machine.relevant (Room.step config) (isOutside config) room calls)) =
      effectsWhileMember conn (Machine.trace (Room.step config) room calls) := by
  induction calls generalizing room with
  | nil => rfl
  | cons call rest ih =>
      by_cases outside : isOutside config room call = true
      · have same := ih (room.step config call).1
        rw [(step_outside outside).1] at same
        simp only [Machine.relevant, outside, ↓reduceIte, Machine.trace]
        rw [effectsWhileMember_cons conn (Machine.entry _ room call),
          effectsWhileMember_outside outside, (step_outside outside).1, same]
        rfl
      · simp only [Machine.relevant, outside, Bool.false_eq_true, ↓reduceIte, Machine.trace]
        rw [effectsWhileMember_cons, ih, ← effectsWhileMember_cons]

/-- A handshake that fails validation is closed with a code the room has no part in. -/
theorem handleMessage_of_invalid_hello {config : RoomConfig} {msg : JsValue} {reason : String}
    (invalid : validateHello msg ⟨config.protocolVersion, config.roomCode⟩ = .error reason)
    {room : Room} {conn : ConnId} (unregistered : room.conns conn = none) (draws : Draws) :
    handleMessage config room conn msg draws =
      closeHandshake room conn (handshakeCloseCode reason) := by
  cases msg with
  | obj fields =>
      by_cases isHello : typeField? (.obj fields) = some (js "hello")
      · simp [handleMessage, isPlainObject, unregistered, isHello, handleHello, invalid]
      · have malformed : reason = "malformed hello" := by
          simp only [validateHello] at invalid
          split at invalid
          · rename_i type typeFound
            have other : type ≠ js "hello" := fun same =>
              isHello (by simp [typeField?, typeFound, same])
            rw [if_neg other] at invalid
            exact (Except.error.inj invalid).symm
          · exact (Except.error.inj invalid).symm
        simp [handleMessage, isPlainObject, unregistered, isHello, malformed, handshakeCloseCode]
  | null | bool | num | str | arr =>
      obtain rfl : reason = "malformed hello" := (Except.error.inj invalid).symm
      simp [handleMessage, isPlainObject, unregistered, handshakeCloseCode]

theorem handshakeCloseCode_ne_roomFull (reason : String) :
    handshakeCloseCode reason ≠ CloseCode.roomFull := by
  unfold handshakeCloseCode
  split
  · decide
  · split <;> decide

/-- Only the handshake closes a connection. -/
theorem Transition.unregistered_of_close {config : RoomConfig} {room : Room} {call : Call}
    {handled : Handled} (transition : Transition config room call handled) {conn : ConnId}
    {code : Nat} (closed : Effect.close conn code ∈ handled.2.effects) :
    call.conn = conn ∧ room.conns conn = none := by
  cases transition with
  | idle call outcome answers noDelta =>
      cases answers _ closed with
      | close unregistered => exact ⟨rfl, unregistered⟩
  | join => simp [welcome, mem_broadcast_iff] at closed
  | claim | release | delta | leave => simp [mem_broadcast_iff] at closed

/-- A connection is told that the room is full only after naming the right room. -/
theorem roomFull_of_close {config : RoomConfig} {room : Room} {call : Call} {conn : ConnId}
    (closed : Effect.close conn CloseCode.roomFull ∈ (room.step config call).2.effects) :
    ∃ fields draws, call = .message conn (.obj fields) draws ∧
      fields.lookup (js "type") = some (.str (js "hello")) ∧
      fields.lookup (js "protocolVersion") = some (.number config.protocolVersion) ∧
      fields.lookup (js "room") = some (.str config.roomCode) := by
  obtain ⟨rfl, unregistered⟩ := (step_transition config room call).unregistered_of_close closed
  cases call with
  | disconnect conn =>
      simp only [Call.conn] at unregistered
      simp [Room.step, handleDisconnect, unregistered] at closed
  | message conn msg draws =>
      simp only [Call.conn, Room.step] at unregistered closed
      cases validated : validateHello msg ⟨config.protocolVersion, config.roomCode⟩ with
      | error reason =>
          rw [handleMessage_of_invalid_hello validated unregistered] at closed
          have code := (Effect.close.inj (List.mem_singleton.mp closed)).2
          exact absurd code.symm (handshakeCloseCode_ne_roomFull reason)
      | ok hello =>
          obtain ⟨fields, rfl, typed, version, _, roomCode⟩ := validateHello_ok_fields validated
          exact ⟨fields, draws, rfl, typed, version, roomCode⟩

/-- The calls of connections that are not members may be deleted from any run, a wrong
hello is closed alike in every room, and only a right one hears that the room is full. -/
theorem outsiders_do_not_interfere (config : RoomConfig) (calls : List Call) :
    let kept := Machine.relevant (Room.step config) (isOutside config) createRoom calls
    (runRoom config kept = runRoom config calls ∧
      roomTrace config kept =
        (roomTrace config calls).filter (fun row => !isOutside config row.before row.input) ∧
      ∀ conn, effectsWhileMember conn (roomTrace config kept) =
        effectsWhileMember conn (roomTrace config calls)) ∧
    (∀ msg reason,
      validateHello msg ⟨config.protocolVersion, config.roomCode⟩ = .error reason →
      ∃ code, ∀ (room : Room) conn draws, room.conns conn = none →
        handleMessage config room conn msg draws = closeHandshake room conn code) ∧
    ∀ (room : Room) call conn,
      Effect.close conn CloseCode.roomFull ∈ (room.step config call).2.effects →
      ∃ fields draws, call = .message conn (.obj fields) draws ∧
        fields.lookup (js "type") = some (.str (js "hello")) ∧
        fields.lookup (js "protocolVersion") = some (.number config.protocolVersion) ∧
        fields.lookup (js "room") = some (.str config.roomCode) := by
  have unchanged : ∀ room call, isOutside config room call = true →
      (room.step config call).1 = room := fun _ _ outside => (step_outside outside).1
  refine ⟨⟨?_, ?_, ?_⟩, ?_, ?_⟩
  · exact Machine.run_relevant _ _ unchanged createRoom calls
  · exact Machine.trace_relevant _ _ unchanged createRoom calls
  · exact fun conn => effectsWhileMember_relevant config conn createRoom calls
  · intro msg reason invalid
    exact ⟨handshakeCloseCode reason, fun room conn draws unregistered =>
      handleMessage_of_invalid_hello invalid unregistered draws⟩
  · exact fun room call conn closed => roomFull_of_close closed

end DjApp.Server
