import DjApp.System.Proper

/-! The invariant of every run, step by step. -/

set_option autoImplicit false

namespace DjApp.System

open Library
open Server (ConnId Frame Room RoomConfig Registration IsMember Transition framesTo)
open Client (ClientApp ClientMessage)

theorem conns_disconnect {config : RoomConfig} {room : Room} {gone : ConnId}
    {handled : Server.Handled} (transition : Transition config room (.disconnect gone) handled) :
    handled.1.conns = room.conns := by
  cases transition with
  | idle | leave => rfl

theorem serverSeq_le {config : RoomConfig} {room : Room} {call : Server.Call}
    {handled : Server.Handled} (transition : Transition config room call handled) :
    room.serverSeq ≤ handled.1.serverSeq := by
  cases transition with
  | idle | join | claim | release | leave => exact le_rfl
  | delta => exact Nat.le_succ _

theorem StepBy.serverSeq_le {config : RoomConfig} {world after : World}
    (stepped : Step config world after) : world.room.serverSeq ≤ after.room.serverSeq := by
  cases stepped with
  | drop conn listening => exact System.serverSeq_le (Server.step_transition config _ _)
  | serve conn message rest draws listening first =>
      exact System.serverSeq_le (Server.step_transition config _ _)
  | connect | leave | deliver | claimControl | releaseControl | edit | tick => exact le_rfl

namespace World

variable {config : RoomConfig} {world : World}

section Attending

/-- The server listens to its members, and to none that has been one. -/
structure Attended (world : World) : Prop where
  present : ∀ conn, (world.conns conn).listening = true → world.room.conns conn ≠ none →
    ∃ registration, IsMember world.room conn registration
  absent : ∀ conn registration, IsMember world.room conn registration →
    (world.conns conn).listening = true

theorem Attended.initial : Attended .initial where
  present := by simp [World.initial]
  absent conn registration member := by cases member.registered

theorem Attended.act (attended : Attended world) (key : ℕ)
    (done : ClientApp × List ClientMessage) : Attended (world.act key done) where
  present conn := by
    rw [listening_act]
    exact attended.present conn
  absent conn := by
    rw [listening_act]
    exact attended.absent conn

theorem Attended.setConn (attended : Attended world) {conn : ConnId} {connection : Connection}
    (same : connection.listening = (world.conns conn).listening) :
    Attended (world.setConn conn connection) := by
  have listening : ∀ other, ((world.setConn conn connection).conns other).listening =
      (world.conns other).listening := by
    intro other
    by_cases own : other = conn
    · subst own
      simp [World.setConn, same]
    · simp [World.setConn, own]
  constructor
  · intro other
    rw [listening]
    exact attended.present other
  · intro other
    rw [listening]
    exact attended.absent other

/-- A call closes no member's connection. -/
theorem closes_of_isMember {call : Server.Call} {handled : Server.Handled} {room : Room}
    (transition : Transition config room call handled) {conn : ConnId} {registration : Registration}
    (member : IsMember handled.1 conn registration) : closes conn handled.2.effects = false := by
  rw [← Bool.not_eq_true]
  intro closed
  obtain ⟨same, unregistered⟩ := closes_imp transition closed
  have registered := member.registered
  rw [same, unregistered] at registered
  cases registered

theorem Attended.serve (attended : Attended world) (valid : world.room.Valid config) {conn : ConnId}
    (listening : (world.conns conn).listening = true) (rest : List ClientMessage)
    (msg : JsValue) (draws : Server.Draws) :
    Attended ((world.setConn conn { world.conns conn with up := rest }).call config
      (.message conn msg draws)) := by
  have transition := Server.step_transition config world.room (.message conn msg draws)
  have after := transition.valid valid
  have same : ∀ other, ((world.setConn conn { world.conns conn with up := rest }).conns
      other).listening = (world.conns other).listening := by
    intro other
    by_cases own : other = conn
    · subst own
      simp [World.setConn]
    · simp [World.setConn, own]
  constructor
  · intro other listens registered
    simp only [World.call, Connection.listening_hear, same, Bool.and_eq_true] at listens
    cases before : world.room.conns other with
    | some registration =>
        obtain ⟨own, member⟩ := attended.present other listens.1 (by simp [before])
        exact ⟨own, isMember_message transition member⟩
    | none =>
        obtain ⟨_, id, name, shape, _⟩ := joined transition before registered
        rw [shape] at after
        have member := isMember_register after
        refine ⟨⟨id, name⟩, ?_⟩
        simp only [World.call, World.setConn, shape]
        exact member
  · intro other registration member
    have unclosed := closes_of_isMember transition member
    simp only [World.call, Connection.listening_hear, same, Bool.and_eq_true, Bool.not_eq_true']
    refine ⟨?_, unclosed⟩
    cases before : world.room.conns other with
    | some earlier =>
        have welcomed : world.room.conns other ≠ none := by simp [before]
        exact attended.absent other registration (transition.wasMember valid welcomed member)
    | none =>
        have registered : (world.room.step config (.message conn msg draws)).1.conns other =
            some registration := member.registered
        obtain ⟨caller, _⟩ := joined transition before (by simp [registered])
        exact caller ▸ listening

theorem Attended.drop (attended : Attended world) (valid : world.room.Valid config) (conn : ConnId) :
    Attended ((world.setConn conn (world.conns conn).close).call config (.disconnect conn)) := by
  have transition := Server.step_transition config world.room (.disconnect conn)
  have conns := conns_disconnect transition
  have others : ∀ other, other ≠ conn →
      (world.setConn conn (world.conns conn).close).conns other = world.conns other := by
    intro other unlike
    simp [World.setConn, unlike]
  constructor
  · intro other listens registered
    simp only [World.call, Connection.listening_hear, Bool.and_eq_true] at listens
    have unlike : other ≠ conn := by
      rintro rfl
      simp [World.setConn, Connection.close] at listens
    rw [others other unlike] at listens
    have welcomed : world.room.conns other ≠ none := by
      rw [← conns]
      exact registered
    obtain ⟨own, member⟩ := attended.present other listens.1 welcomed
    exact ⟨own, isMember_disconnect unlike transition member⟩
  · intro other registration member
    have unlike : other ≠ conn := by
      rintro rfl
      exact not_isMember_disconnect config world.room other registration member
    have unclosed := closes_of_isMember transition member
    have welcomed : world.room.conns other ≠ none := by
      have registered := member.registered
      simp only [World.call, World.setConn, conns] at registered
      simp [registered]
    have was := transition.wasMember valid welcomed member
    simp only [World.call, Connection.listening_hear, others other unlike, Bool.and_eq_true,
      Bool.not_eq_true']
    exact ⟨attended.absent other registration was, unclosed⟩

theorem Attended.step (attended : Attended world) (proper : Proper config world) {after : World}
    (stepped : Step config world after) : Attended after := by
  cases stepped with
  | connect key name room unlinked built =>
      have fresh := proper.unused world.nextConn le_rfl
      refine ⟨fun conn listens registered => ?_, fun conn registration member => ?_⟩
      · by_cases same : conn = world.nextConn
        · subst same
          exact absurd fresh.2 registered
        · simp only [Function.update_of_ne same] at listens
          exact attended.present conn listens registered
      · by_cases same : conn = world.nextConn
        · simp [same]
        · simpa [same] using attended.absent conn registration member
  | leave key conn linked settled => exact ⟨attended.present, attended.absent⟩
  | drop conn listening => exact attended.drop proper.valid conn
  | serve conn message rest draws listening first =>
      exact attended.serve proper.valid listening rest _ draws
  | deliver key conn now frame rest linked first settled =>
      exact Attended.act (@Attended.setConn _ attended conn { world.conns conn with down := rest } rfl) key _
  | claimControl key | releaseControl key | edit key | tick key => exact attended.act key _

end Attending

/-- What holds of every reachable world whose sequence number is an `int`: members'
clients keep up, and ask for no snapshot. -/
structure Sound (config : RoomConfig) (world : World) : Prop extends Proper config world where
  unasked : ∀ conn, .requestSnapshot ∉ (world.conns conn).up
  follows : ∀ key conn registration, world.links key = some conn →
    IsMember world.room conn registration →
    Follows world.room conn registration (world.apps key) (world.conns conn).down

namespace Sound

theorem initial : Sound config .initial where
  toProper := .initial
  unasked := by simp [World.initial]
  follows := by simp [World.initial]

variable (sound : Sound config world)

include sound

/-- A client's step that takes nothing from its room. -/
theorem act (key : ℕ) {done : ClientApp × List ClientMessage}
    (proper : Proper config (world.act key done))
    (stands : done.1.standing = (world.apps key).standing)
    (seen : done.1.lastSeenServerSeq = (world.apps key).lastSeenServerSeq)
    (unasked : .requestSnapshot ∉ done.2) : Sound config (world.act key done) where
  toProper := proper
  unasked conn member := by
    rcases mem_up_act world key done member with earlier | ⟨_, _, sent⟩
    · exact sound.unasked conn earlier
    · exact unasked sent
  follows other conn registration linked member := by
    have follows := sound.follows other conn registration linked member
    rw [down_act]
    by_cases same : other = key
    · subst same
      simpa [World.act] using follows.congr stands seen
    · simpa [World.act, same] using follows

theorem call {call : Server.Call} (proper : Proper config (world.call config call))
    (bounded : (world.call config call).room.clients.length ≤ 9)
    (small : (world.call config call).room.serverSeq < 2 ^ 31) :
    Sound config (world.call config call) := by
  have transition := Server.step_transition config world.room call
  refine ⟨proper, fun conn member => ?_, fun key conn registration linked member => ?_⟩
  · simp only [World.call, Connection.up_hear] at member
    split at member
    · cases member
    · exact sound.unasked conn member
  · simp only [World.call, Connection.down_hear]
    cases before : world.room.conns conn with
    | none =>
        have registered : (world.room.step config call).1.conns conn = some registration :=
          member.registered
        obtain ⟨_, id, name, shape, _⟩ := joined transition before (by simp [registered])
        have after := proper.valid
        simp only [World.call, shape] at member after bounded small transition ⊢
        have heard := Server.framesTo_welcome after.distinctConns
        have own : registration = ⟨id, name⟩ :=
          Option.some.inj (member.registered.symm.trans (isMember_register after).registered)
        subst own
        have shown : .send conn _ ∈ (Server.welcome world.room conn id name).2.effects :=
          Server.mem_framesTo_iff.mp (heard ▸ List.mem_singleton_self _)
        rw [sound.silent conn before, List.nil_append, heard]
        exact .welcome (transition.frames sound.valid sound.named shown).1 member rfl rfl rfl
          bounded rfl small _
    | some earlier =>
        have welcomed : world.room.conns conn ≠ none := by simp [before]
        have was := transition.wasMember sound.valid welcomed member
        exact (sound.follows key conn registration linked was).call transition sound.valid
          sound.named was member bounded small

theorem setConn {conn : ConnId} {connection : Connection}
    (proper : Proper config (world.setConn conn connection))
    (down : connection.down = (world.conns conn).down)
    (up : ∀ message ∈ connection.up, message ∈ (world.conns conn).up) :
    Sound config (world.setConn conn connection) := by
  refine ⟨proper, fun other member => ?_, fun key other registration linked member => ?_⟩
  · by_cases same : other = conn
    · subst same
      simp only [World.setConn, Function.update_self] at member
      exact sound.unasked other (up _ member)
    · simp only [World.setConn, Function.update_of_ne same] at member
      exact sound.unasked other member
  · have follows := sound.follows key other registration linked member
    by_cases same : other = conn
    · subst same
      simpa [World.setConn, down] using follows
    · simpa [World.setConn, same] using follows

theorem connect (key : ℕ) (name room : String) :
    Sound config
      { world with
        apps := Function.update world.apps key (world.apps key).connect
        links := Function.update world.links key (some world.nextConn)
        conns := Function.update world.conns world.nextConn
          { up := [.hello name room], listening := true }
        nextConn := world.nextConn + 1 } where
  toProper := sound.toProper.connect key (.hello name room) trivial
  unasked conn := by
    by_cases same : conn = world.nextConn
    · simp [same]
    · simpa [same] using sound.unasked conn
  follows other conn registration linked member := by
    rcases sound.toProper.link_connect linked with ⟨_, rfl⟩ | ⟨same, before, unlike⟩
    · have registered := member.registered
      rw [(sound.unused world.nextConn le_rfl).2] at registered
      cases registered
    · simpa [same, unlike] using sound.follows other conn registration before member

theorem leave (key : ℕ) :
    Sound config
      { world with
        apps := Function.update world.apps key (world.apps key).closed
        links := Function.update world.links key none } where
  toProper := sound.toProper.leave key
  unasked := sound.unasked
  follows other conn registration linked member := by
    obtain ⟨unlike, before⟩ := Proper.link_leave linked
    simpa [unlike] using sound.follows other conn registration before member

/-- A member that the server listens to answers no frame with a request. -/
theorem replies_unasked (attended : Attended world) {key : ℕ} {conn : ConnId}
    (linked : world.links key = some conn) (listening : (world.conns conn).listening = true)
    {frame : Frame} {rest : List Frame} (first : (world.conns conn).down = frame :: rest) :
    .requestSnapshot ∉ (world.apps key).replies frame := by
  have registered : world.room.conns conn ≠ none := by
    intro unregistered
    rw [sound.silent conn unregistered] at first
    cases first
  obtain ⟨registration, member⟩ := attended.present conn listening registered
  have follows := sound.follows key conn registration linked member
  rw [first] at follows
  have unmissed := follows.upToDate.unmissed.1
  cases frame with
  | delta serverSeq source deck changes =>
      rw [missed] at unmissed
      simp [ClientApp.replies, unmissed]
  | roleChanged id role =>
      simp only [ClientApp.replies]
      split <;> simp [Client.MainComponent.pushFullResync]
  | welcome | peerJoined | peerLeft | snapshot | error => simp [ClientApp.replies]

theorem deliver (attended : Attended world) {key : ℕ} {conn : ConnId}
    (linked : world.links key = some conn) {frame : Frame} {rest : List Frame}
    (first : (world.conns conn).down = frame :: rest) :
    Sound config ((world.setConn conn { world.conns conn with down := rest }).act key
      ((world.apps key).receive frame, (world.apps key).replies frame)) := by
  let taken := world.setConn conn { world.conns conn with down := rest }
  have own : taken.links key = some conn := linked
  have others : ∀ {other}, other ≠ conn → taken.conns other = world.conns other := by
    intro other unlike
    simp [taken, World.setConn, unlike]
  refine ⟨sound.toProper.deliver linked first, fun other member => ?_,
    fun other conn' registration otherLinked member => ?_⟩
  · rcases mem_up_act taken key _ member with earlier | ⟨sends, listening, sent⟩
    · by_cases same : other = conn
      · subst same
        simp only [taken, World.setConn, Function.update_self] at earlier
        exact sound.unasked other earlier
      · rw [others same] at earlier
        exact sound.unasked other earlier
    · obtain rfl : conn = other := Option.some.inj (own.symm.trans sends)
      simp only [taken, World.setConn, Function.update_self] at listening
      exact sound.replies_unasked attended linked listening first sent
  · have follows := sound.follows other conn' registration otherLinked member
    rw [down_act]
    by_cases same : other = key
    · subst same
      obtain rfl : conn = conn' := Option.some.inj (linked.symm.trans otherLinked)
      rw [first] at follows
      simpa [World.act, World.setConn] using follows.deliver
    · have unlike : conn' ≠ conn := by
        rintro rfl
        exact same (sound.alone other key _ otherLinked linked)
      rw [others unlike]
      simpa [World.act, taken, World.setConn, same] using follows

theorem step (attended : Attended world) {after : World} (stepped : Step config world after)
    (bounded : after.room.clients.length ≤ 9) (small : after.room.serverSeq < 2 ^ 31) :
    Sound config after := by
  have proper := sound.toProper.step stepped
  cases stepped with
  | connect key name room unlinked built => exact sound.connect key name room
  | leave key conn linked settled => exact sound.leave key
  | drop conn listening =>
      have closing := @Proper.setConn _ _ sound.toProper conn (world.conns conn).close
        (sound.used listening) (fun _ member => member) (by simp [Connection.close])
      exact (sound.setConn closing rfl (by simp [Connection.close])).call proper bounded small
  | serve conn message rest draws listening first =>
      have fewer : ∀ sent ∈ rest, sent ∈ (world.conns conn).up := fun sent member =>
        first ▸ List.mem_cons_of_mem _ member
      have taking := @Proper.setConn _ _ sound.toProper conn { world.conns conn with up := rest }
        (sound.used listening) (fun _ member => member) fewer
      exact (sound.setConn taking rfl fewer).call proper bounded small
  | deliver key conn now frame rest linked first settled =>
      have valid : frame.Valid config := sound.frames conn frame (by simp [first])
      rw [Client.dispatch_toVar _ now valid]
      exact sound.deliver attended linked first
  | claimControl key conn linked | releaseControl key conn linked =>
      exact sound.act key proper rfl rfl (by simp)
  | edit key now delta allowed named =>
      exact sound.act key proper (ClientApp.standing_edit _ now delta) rfl
        (ClientApp.edit_unasked _ now delta)
  | tick key now => exact sound.act key proper rfl rfl (ClientApp.tick_unasked _ now)

end Sound

end World

end DjApp.System
