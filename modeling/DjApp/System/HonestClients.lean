import DjApp.Server.Strikes
import DjApp.System.Greetings

/-! What the room never has to say to a client of ours: it is a member of the room as soon as
its hello is served, and no message of a member is taken for an invalid one. -/

set_option autoImplicit false

namespace DjApp.System

open Library
open Server (ConnId Frame Room RoomConfig Registration IsMember FrameKind framesTo)
open Client (ClientApp ClientMessage)

/-- A request that came too late, or a control that someone else has. -/
def Expected : Frame → Prop
  | .error code _ => code = .controlTaken ∨ code = .notController
  | .welcome _ _ _ _ _ | .peerJoined _ _ _ | .peerLeft _ | .roleChanged _ _ | .delta _ _ _ _
  | .snapshot _ _ => True

section Room

variable {config : RoomConfig} {room : Room} {conn : ConnId}

/-- A call closes no connection but its own. -/
theorem closes_own {call : Server.Call} {handled : Server.Handled}
    (transition : Server.Transition config room call handled) {target : ConnId}
    (closed : closes target handled.2.effects = true) : target = call.conn := by
  obtain ⟨effect, member, isClose⟩ := List.any_eq_true.mp closed
  have broadcast : ∀ (room : Room) (frame : Frame) (except : Option ConnId),
      effect ∉ room.broadcast frame except := by
    intro room frame except sent
    obtain ⟨_, _, _, rfl⟩ := Server.mem_broadcast_iff.mp sent
    cases isClose
  cases transition with
  | idle call outcome answers =>
      cases answers effect member with
      | close unregistered code => exact (beq_iff_eq.mp isClose).symm
      | error | snapshot => cases isClose
  | join joining msg draws id name =>
      rcases List.mem_cons.mp member with rfl | announced
      · cases isClose
      · exact absurd announced (broadcast _ _ _)
  | claim | release | delta | leave => exact absurd member (broadcast _ _ _)

/-- A message that a member may send, once it is one. -/
theorem wellFormed_asJs {message : ClientMessage} (publishable : message.Publishable)
    (introduced : isHello message = false) : Server.wellFormed message.asJs = true := by
  unfold Server.wellFormed
  rw [isPlainObject_asJs, validateEnvelope_asJs]
  cases message with
  | hello name code => cases introduced
  | claimControl | releaseControl | requestSnapshot => rfl
  | delta delta =>
      have accepted := Client.validateDelta_buildDelta publishable.present publishable.valid
      simp only [messageTypeOf, asJs_delta, accepted]
      rfl

theorem expected_broadcast {frame : Frame} (expected : Expected frame) (except : Option ConnId) :
    ∀ target sent, .send target sent ∈ room.broadcast frame except → Expected sent := by
  intro target sent member
  obtain ⟨_, _, _, same⟩ := Server.mem_broadcast_iff.mp member
  obtain ⟨_, rfl⟩ := Server.Effect.send.inj same
  exact expected

theorem expected_refuse {code : Server.ErrorCode} (text : String)
    (late : code = .controlTaken ∨ code = .notController) :
    ∀ target sent, .send target sent ∈ (Server.refuse room conn code text).2.effects →
      Expected sent := by
  intro target sent member
  obtain ⟨_, rfl⟩ := Server.Effect.send.inj (List.mem_singleton.mp member)
  exact late

/-- What the room answers to a member's message. -/
theorem expected_member {registration : Registration} (member : IsMember room conn registration)
    (draws : Server.Draws) {message : ClientMessage} (publishable : message.Publishable)
    (introduced : isHello message = false) :
    ∀ target sent,
      .send target sent ∈ (room.step config (.message conn message.asJs draws)).2.effects →
        Expected sent := by
  have live := (Server.isMember_eq_true_iff member.registered).mpr member
  rw [step_member config member draws message]
  cases message with
  | hello name code => cases introduced
  | claimControl =>
      simp only [messageTypeOf, Server.handleClaimControl, member.registered, live, Bool.not_true,
        Bool.false_eq_true, ↓reduceIte]
      split
      · exact expected_refuse _ (.inl rfl)
      · exact expected_broadcast (by trivial) none
  | releaseControl =>
      simp only [messageTypeOf, Server.handleReleaseControl, member.registered, live,
        Bool.not_true, Bool.false_eq_true, ↓reduceIte]
      split
      · exact expected_refuse _ (.inr rfl)
      · exact expected_broadcast (by trivial) none
  | delta delta =>
      have accepted := Client.validateDelta_buildDelta publishable.present publishable.valid
      simp only [messageTypeOf, asJs_delta, Server.handleDelta, member.registered, live, accepted,
        Bool.not_true, Bool.false_eq_true, ↓reduceIte]
      split
      · intro target sent listed
        rcases List.mem_cons.mp listed with refused | repaired
        · obtain ⟨_, rfl⟩ := Server.Effect.send.inj refused
          exact .inr rfl
        · obtain ⟨_, rfl⟩ := Server.Effect.send.inj (List.mem_singleton.mp repaired)
          trivial
      · exact expected_broadcast (by trivial) _
  | requestSnapshot =>
      intro target sent listed
      obtain ⟨_, rfl⟩ := Server.Effect.send.inj (List.mem_singleton.mp listed)
      trivial

/-- What the room answers to a first message. -/
theorem expected_first (unregistered : room.conns conn = none) (message : ClientMessage)
    (draws : Server.Draws) :
    ∀ target sent,
      .send target sent ∈ (room.step config (.message conn message.asJs draws)).2.effects →
        Expected sent := by
  have shut : ∀ code target sent,
      .send target sent ∈ (Server.closeHandshake room conn code).2.effects → Expected sent := by
    intro code target sent member
    cases List.mem_singleton.mp member
  simp only [Room.step, Server.handleMessage, isPlainObject_asJs, unregistered, Bool.not_true,
    Bool.false_eq_true, Option.isNone_none, ↓reduceIte]
  split
  · unfold Server.handleHello
    split
    · exact shut _
    · split
      · exact shut _
      · split
        · exact shut _
        · intro target sent listed
          rcases List.mem_cons.mp listed with welcomed | announced
          · obtain ⟨_, rfl⟩ := Server.Effect.send.inj welcomed
            trivial
          · exact expected_broadcast (by trivial) _ target sent announced
  · exact shut _

theorem expected_disconnect :
    ∀ target sent, .send target sent ∈ (room.step config (.disconnect conn)).2.effects →
      Expected sent := by
  simp only [Room.step, Server.handleDisconnect]
  split
  · intro target sent member
    cases member
  · split
    · exact expected_broadcast (by trivial) none
    · intro target sent member
      cases member

end Room

namespace World

variable {config : RoomConfig} {world after : World}

def AllExpected (world : World) : Prop := ∀ conn, ∀ frame ∈ (world.conns conn).down, Expected frame

theorem AllExpected.call (expected : AllExpected world) {call : Server.Call}
    (answers : ∀ target sent, .send target sent ∈ (world.room.step config call).2.effects →
      Expected sent) : AllExpected (world.call config call) := by
  intro conn frame member
  simp only [World.call, Connection.down_hear] at member
  rcases List.mem_append.mp member with earlier | sent
  · exact expected conn frame earlier
  · exact answers conn frame (Server.mem_framesTo_iff.mp sent)

theorem AllExpected.setConn (expected : AllExpected world) {conn : ConnId} {connection : Connection}
    (kept : ∀ frame ∈ connection.down, frame ∈ (world.conns conn).down) :
    AllExpected (world.setConn conn connection) := by
  intro other frame member
  by_cases own : other = conn
  · subst own
    exact expected other frame (kept frame (by simpa [World.setConn] using member))
  · exact expected other frame (by simpa [World.setConn, own] using member)

theorem AllExpected.act (expected : AllExpected world) (key : ℕ)
    (done : ClientApp × List ClientMessage) : AllExpected (world.act key done) := by
  intro conn
  rw [down_act]
  exact expected conn

/-- What the room answers to the next message of a client. -/
theorem expected_serve (proper : Proper config world) (live : Live world)
    (attended : Attended world) {conn : ConnId} {message : ClientMessage}
    {rest : List ClientMessage} (draws : Server.Draws)
    (listening : (world.conns conn).listening = true)
    (first : (world.conns conn).up = message :: rest) :
    ∀ target sent,
      .send target sent ∈ (world.room.step config (.message conn message.asJs draws)).2.effects →
        Expected sent := by
  have listed : message ∈ (world.conns conn).up := first ▸ List.mem_cons_self
  by_cases registered : world.room.conns conn = none
  · exact expected_first registered message draws
  · obtain ⟨registration, member⟩ := attended.present conn listening registered
    exact expected_member member draws (proper.messages conn message listed)
      ((live.kept conn).introduced registered message listed)

theorem AllExpected.step (expected : AllExpected world) (proper : Proper config world)
    (live : Live world) (attended : Attended world) (stepped : Step config world after) :
    AllExpected after := by
  cases stepped with
  | connect key name room unlinked built =>
      intro conn
      by_cases fresh : conn = world.nextConn
      · subst fresh
        simp only [Function.update_self]
        intro frame member
        cases member
      · simp only [Function.update_of_ne fresh]
        exact expected conn
  | leave key => exact expected
  | drop conn listening =>
      have shut := @AllExpected.setConn _ expected conn (world.conns conn).close fun _ same => same
      exact shut.call expected_disconnect
  | serve conn message rest draws listening first =>
      have taken := @AllExpected.setConn _ expected conn { world.conns conn with up := rest }
        fun _ same => same
      exact taken.call (expected_serve proper live attended draws listening first)
  | deliver key conn now frame rest linked first =>
      have taken := @AllExpected.setConn _ expected conn { world.conns conn with down := rest }
        fun _ later => first ▸ List.mem_cons_of_mem _ later
      exact taken.act key _
  | claimControl key | releaseControl key | edit key | tick key => exact expected.act key _

end World

theorem ReachableBy.allExpected {config : RoomConfig} {world : World}
    (reachable : Reachable config world) : world.AllExpected := by
  induction reachable with
  | initial =>
      intro conn frame member
      cases member
  | step reachable stepped bounded _ ih =>
      exact ih.step reachable.proper reachable.live reachable.attended stepped

/-- However the clients and their users behave, the room refuses them nothing but control, takes
no message of a member for an invalid one, and closes no connection but in answer to its hello. -/
theorem honest_clients_unpunished {digits : ℚ → ℚ} {config : RoomConfig} {world : World}
    (reachable : ReachableBy (ClientMessage.toJs digits) config world) :
    (∀ conn code text, .error code text ∈ (world.conns conn).down →
        code = .controlTaken ∨ code = .notController) ∧
      (∀ conn draws, world.room.conns conn ≠ none → ∀ message ∈ (world.conns conn).up,
        Server.kindOf config world.room conn draws (some (message.toJs digits)) ≠
          FrameKind.invalid) ∧
      ∀ conn draws message rest, (world.conns conn).listening = true →
        (world.conns conn).up = message :: rest → ∀ target,
        closes target (world.room.step config
          (.message conn (message.toJs digits) draws)).2.effects = true →
            target = conn ∧ isHello message = true ∧ world.room.conns conn = none := by
  have exact := reachable.exact
  replace reachable := reachable.meant
  have live := reachable.live
  refine ⟨fun conn code text listed => reachable.allExpected conn _ listed, ?_, ?_⟩
  · intro conn draws registered message listed
    have formed := wellFormed_asJs (reachable.proper.messages conn message listed)
      ((live.kept conn).introduced registered message listed)
    rw [exact conn message listed]
    simp only [Server.kindOf, formed, Bool.not_true, Bool.false_eq_true, ↓reduceIte]
    split <;> simp
  · intro conn draws message rest listening first target closed
    rw [exact conn message (first ▸ List.mem_cons_self)] at closed
    have transition := Server.step_transition config world.room (.message conn message.asJs draws)
    have unregistered := (closes_imp transition closed).2
    obtain rfl : target = conn := closes_own transition closed
    obtain ⟨name, room, others, shape, _⟩ :=
      (live.kept target).greets listening (not_not.mpr unregistered)
    obtain ⟨rfl, _⟩ := List.cons.inj (first.symm.trans shape)
    exact ⟨rfl, rfl, unregistered⟩

section Rivals

/-- Ana and Bea both claim control, and Ana's claim comes first. -/
def rivals : List Move :=
  [.connect 0 "Ana" "party", .serve 0 anaId, .deliver 0 0, .connect 1 "Bea" "party",
    .serve 1 beaId, .deliver 1 0, .deliver 0 0, .claimControl 0, .claimControl 1, .serve 0 anaId,
    .serve 1 beaId, .deliver 0 0]

theorem rivals_played : ∃ world, World.play Client.fifteenPlaces party .initial rivals = some world ∧
    world.room.conns 0 = some ana ∧ (world.conns 0).up.length = 2 ∧
    .error .controlTaken "control is already claimed" ∈ (world.conns 1).down := by
  decide +kernel

/-- Bea is told that control is taken, and neither of Ana's two decks on their way to the room
counts as invalid. -/
theorem honest_clients_unpunished_rivals :
    ∃ world, World.play Client.fifteenPlaces party .initial rivals = some world ∧
      (world.conns 0).up.length = 2 ∧
      (∀ draws, ∀ message ∈ (world.conns 0).up, Server.kindOf party world.room 0 draws
        (some (message.toJs Client.fifteenPlaces)) ≠ FrameKind.invalid) ∧
      (∃ text, .error .controlTaken text ∈ (world.conns 1).down) ∧
      ∀ code text, .error code text ∈ (world.conns 1).down →
        code = .controlTaken ∨ code = .notController := by
  obtain ⟨world, played, own, waits, refused⟩ := rivals_played
  obtain ⟨told, valid, _⟩ := honest_clients_unpunished (ReachableBy.initial.play played)
  have registered : world.room.conns 0 ≠ none := by
    rw [own]
    exact Option.some_ne_none ana
  exact ⟨world, played, waits, fun draws => valid 0 draws registered, ⟨_, refused⟩, told 1⟩

end Rivals

end DjApp.System
