import DjApp.System.Governing

/-! Control of the room across the calls on it. -/

set_option autoImplicit false

namespace DjApp.System

open Library
open Server (ConnId Frame Room RoomConfig Registration IsMember Transition framesTo)
open Client (ClientApp ClientMessage Decks StateDelta Standing deltasOf)

section Calls

variable {config : RoomConfig} {room : Room} {call : Server.Call} {handled : Server.Handled}

/-- While another has control, a call from elsewhere leaves the decks, and tells the
controller of nothing but the members. -/
theorem calm_call (transition : Transition config room call handled) {conn : ConnId}
    {registration : Registration} (member : IsMember room conn registration)
    (controls : room.controllerId = some registration.id) (other : call.conn ≠ conn) :
    handled.1.decks = room.decks ∧ handled.1.serverSeq = room.serverSeq ∧
      ∀ frame ∈ framesTo conn handled.2.effects, Calm frame := by
  have sent : ∀ (after : Room) (frame : Frame) (except : Option ConnId), Calm frame →
      ∀ heard ∈ framesTo conn (after.broadcast frame except), Calm heard := by
    intro after frame except calm heard listed
    obtain ⟨_, _, _, same⟩ := Server.mem_broadcast_iff.mp (Server.mem_framesTo_iff.mp listed)
    cases same
    exact calm
  cases transition with
  | idle call outcome answers noDelta =>
      refine ⟨rfl, rfl, fun frame listed => ?_⟩
      have answer := answers _ (Server.mem_framesTo_iff.mp listed)
      generalize target : (Server.Effect.send conn frame) = effect at answer
      cases answer with
      | close => cases target
      | error | snapshot =>
          cases target
          exact absurd rfl other
  | join joining msg draws id name unregistered fresh free named isHello =>
      have elsewhere : joining ≠ conn := other
      refine ⟨rfl, rfl, ?_⟩
      rw [Server.framesTo_welcome_other elsewhere]
      exact sent _ _ _ trivial
  | claim calling msg draws claimant claimantMember unclaimed isClaim =>
      rw [unclaimed] at controls
      cases controls
  | release calling msg draws claimant claimantMember held isRelease =>
      have same := Option.some.inj (held.symm.trans controls)
      exact absurd (claimantMember.conn_eq member same) other
  | delta calling msg draws source deck changes sourceMember held validated =>
      have same := Option.some.inj (held.symm.trans controls)
      exact absurd (sourceMember.conn_eq member same) other
  | leave leaving departed leavingMember => exact ⟨rfl, rfl, sent _ _ _ trivial⟩

/-- A call that accepts no delta sends no member a change of the decks. -/
theorem receive_call (transition : Transition config room call handled)
    (quiet : handled.1.serverSeq = room.serverSeq) {conn : ConnId}
    (registered : room.conns conn ≠ none) {deck : DeckId} (present : room.decks.lookup deck ≠ none)
    {frame : Frame} (listed : frame ∈ framesTo conn handled.2.effects) (start : Decks)
    (shows : start deck = roomDecks room deck) : start.receive frame deck = roomDecks room deck := by
  have sent : ∀ (after : Room) (told : Frame) (except : Option ConnId),
      frame ∈ framesTo conn (after.broadcast told except) → frame = told := by
    intro after told except heard
    obtain ⟨_, _, _, same⟩ := Server.mem_broadcast_iff.mp (Server.mem_framesTo_iff.mp heard)
    cases same
    rfl
  cases transition with
  | idle call outcome answers noDelta =>
      cases answers _ (Server.mem_framesTo_iff.mp listed) with
      | error => exact shows
      | snapshot => exact Decks.overwrite_of_mem start present
  | join joining msg draws id name unregistered fresh free named isHello =>
      have other : joining ≠ conn := by
        rintro rfl
        exact registered unregistered
      rw [Server.framesTo_welcome_other other] at listed
      obtain rfl := sent _ _ _ listed
      exact shows
  | claim | release | leave =>
      obtain rfl := sent _ _ _ listed
      exact shows
  | delta => exact absurd quiet (Nat.succ_ne_self _)

theorem foldl_receive_call (transition : Transition config room call handled)
    (quiet : handled.1.serverSeq = room.serverSeq) {conn : ConnId}
    (registered : room.conns conn ≠ none) {deck : DeckId} (present : room.decks.lookup deck ≠ none)
    {frames : List Frame} (listed : ∀ frame ∈ frames, frame ∈ framesTo conn handled.2.effects)
    (start : Decks) (shows : start deck = roomDecks room deck) :
    frames.foldl Decks.receive start deck = roomDecks room deck := by
  induction frames generalizing start with
  | nil => exact shows
  | cons frame rest ih =>
      obtain ⟨first, others⟩ := List.forall_mem_cons.mp listed
      exact ih others _ (receive_call transition quiet registered present first start shows)

/-- Between two moments at which it is locked, a client that hears a call stays so. -/
theorem locked_between (transition : Transition config room call handled)
    (valid : room.Valid config) {conn : ConnId} (registered : room.conns conn ≠ none)
    {standing : Standing} (before : standing.Locked)
    (after : ((framesTo conn handled.2.effects).foldl Standing.receive standing).Locked) :
    ∀ seen, seen <+: framesTo conn handled.2.effects →
      (seen.foldl Standing.receive standing).Locked := by
  intro seen prior
  rcases transition.heard valid registered with steady | ⟨⟨frame, single⟩, _⟩
  · have quiet : ∀ frame ∈ seen, frame.Steady := fun frame member =>
      steady frame (prior.subset member)
    have unwelcomed : seen.any Client.isWelcome = false := by
      apply List.any_eq_false.mpr
      intro frame member
      have still := quiet frame member
      cases frame with
      | snapshot | error => simp [Client.isWelcome]
      | welcome | peerJoined | peerLeft | roleChanged | delta => cases still
    rw [Standing.foldl_receive, foldl_receive_of_steady quiet, unwelcomed, Bool.or_false]
    exact before
  · rw [single] at prior after
    rcases List.prefix_cons_iff.mp prior with rfl | ⟨rest, rfl, nothing⟩
    · exact before
    · obtain rfl := List.prefix_nil.mp nothing
      exact after

end Calls

/-- A controller was a member, with its connection, before the call that leaves it so. -/
theorem isMember_of_controls {config : RoomConfig} {room : Room} {call : Server.Call}
    {handled : Server.Handled} (transition : Transition config room call handled)
    (valid : room.Valid config) {conn : ConnId} {registration : Registration}
    (member : IsMember handled.1 conn registration)
    (controls : room.controllerId = some registration.id) : IsMember room conn registration := by
  cases before : room.conns conn with
  | some earlier => exact transition.wasMember valid (by simp [before]) member
  | none =>
      have registered := member.registered
      obtain ⟨_, id, name, rfl, fresh⟩ := joined transition before (by simp [registered])
      have own : registration = ⟨id, name⟩ := by
        simpa [Server.welcome, Room.register, eq_comm] using registered
      subst own
      have absent := AssocList.lookup_eq_none_iff_not_mem_keys.mp fresh
      exact absurd (valid.controllerLive _ controls) absent

namespace World

section Serving

variable {config : RoomConfig} {world : World} {call : Server.Call} {connection : Connection}

/-- The world after a call on a connection of which something has been taken. -/
def served (config : RoomConfig) (world : World) (call : Server.Call) (connection : Connection) :
    World :=
  (world.setConn call.conn connection).call config call

theorem down_served (same : connection.down = (world.conns call.conn).down) (conn : ConnId) :
    ((world.served config call connection).conns conn).down =
      (world.conns conn).down ++ framesTo conn (world.room.step config call).2.effects := by
  have down : ((world.setConn call.conn connection).conns conn).down = (world.conns conn).down := by
    by_cases own : conn = call.conn
    · simp [setConn, own, same]
    · simp [setConn, own]
  simp only [served, World.call, Connection.down_hear, down]
  rfl

theorem up_served_of_member {conn : ConnId} {registration : Registration}
    (member : IsMember (world.served config call connection).room conn registration) :
    ((world.served config call connection).conns conn).up =
      if conn = call.conn then connection.up else (world.conns conn).up := by
  have transition := Server.step_transition config world.room call
  have unclosed : closes conn (world.room.step config call).2.effects = false :=
    closes_of_isMember transition member
  simp only [served, World.call, Connection.up_hear]
  simp only [setConn, unclosed, Bool.false_eq_true, ↓reduceIte]
  by_cases own : conn = call.conn
  · simp [own]
  · simp [own]

variable (sound : Sound config world)
  (same : connection.down = (world.conns call.conn).down)
  (after : Sound config (world.served config call connection))

include sound same after

/-- Another member's client after a call that accepts no delta, under one controller. -/
theorem tracks_served {settled : DeckId → Prop} {key : ℕ}
    {conn holder : ConnId} {registration controller : Registration}
    (present : ∀ deck, settled deck → world.room.decks.lookup deck ≠ none)
    (quiet : (world.room.step config call).1.serverSeq = world.room.serverSeq)
    (decks : (world.room.step config call).1.decks = world.room.decks)
    (linked : world.links key = some conn)
    (member : IsMember (world.served config call connection).room conn registration)
    (holds : IsMember (world.served config call connection).room holder controller)
    (controls : (world.served config call connection).room.controllerId = some controller.id)
    (unlike : conn ≠ holder)
    (tracks : ∀ registration, IsMember world.room conn registration →
      Tracks world.room settled (world.apps key) (world.conns conn).down) :
    Tracks (world.served config call connection).room settled (world.apps key)
      ((world.served config call connection).conns conn).down := by
  have transition := Server.step_transition config world.room call
  have follows := after.follows key conn registration linked member
  have locked := follows.locked after.valid member holds controls unlike
  have shown : roomDecks (world.served config call connection).room = roomDecks world.room := by
    simp only [roomDecks, served, World.call, setConn, decks]
  rw [down_served same] at locked ⊢
  cases before : world.room.conns conn with
  | some earlier =>
      have registered : world.room.conns conn ≠ none := by simp [before]
      have was := transition.wasMember sound.valid registered member
      have tracked := tracks registration was
      rw [List.foldl_append] at locked
      refine tracked.append (fun seen prior => ?_) fun deck done => .inr ⟨done, fun start shows => ?_⟩
      · rw [List.foldl_append]
        exact locked_between transition sound.valid registered tracked.locked_whole locked seen prior
      · rw [shown]
        exact foldl_receive_call transition quiet registered (present deck done)
          (fun _ listed => listed) start shows
  | none =>
      have registered : (world.room.step config call).1.conns conn = some registration :=
        member.registered
      obtain ⟨_, id, name, shape, _⟩ := joined transition before (by simp [registered])
      have heard := Server.framesTo_welcome (shape ▸ transition.valid sound.valid).distinctConns
      rw [← shape] at heard
      rw [sound.silent conn before, List.nil_append, heard] at locked ⊢
      refine .awaits [] _ [] rfl (fun seen prior => ?_) fun deck done start => ?_
      · obtain rfl := List.prefix_nil.mp prior
        exact locked
      · rw [shown]
        exact Decks.overwrite_of_mem start (present deck done)

/-- A call from elsewhere leaves the room under its controller. -/
theorem governed_elsewhere {settled : DeckId → Prop} {key : ℕ} {conn : ConnId}
    {registration : Registration} (governed : Governed world key conn registration settled)
    (member : IsMember world.room conn registration)
    (stays : IsMember (world.served config call connection).room conn registration)
    (controls : world.room.controllerId = some registration.id)
    (remains : (world.served config call connection).room.controllerId = some registration.id)
    (other : call.conn ≠ conn) :
    Governed (world.served config call connection) key conn registration settled := by
  have transition := Server.step_transition config world.room call
  obtain ⟨decks, quiet, calm⟩ := calm_call transition member controls other
  have shown : roomDecks (world.served config call connection).room = roomDecks world.room := by
    simp only [roomDecks, served, World.call, setConn, decks]
  have down := @down_served config _ _ _ same conn
  have up : ((world.served config call connection).conns conn).up = (world.conns conn).up := by
    rw [up_served_of_member stays, if_neg (Ne.symm other)]
  constructor
  · intro deck done
    simp only [served, World.call, setConn, decks]
    exact governed.present deck done
  · cases governed.steers with
    | granted earlier later queue calmLater own observes =>
        refine .granted earlier (later ++ framesTo conn (world.room.step config call).2.effects)
          ?_ ?_ own observes
        · rw [down, queue, List.append_assoc, List.cons_append]
        · exact List.forall_mem_append.mpr ⟨calmLater, calm⟩
    | holds role calmDown owes covered =>
        refine .holds role ?_ ?_ ?_
        · rw [down]
          exact List.forall_mem_append.mpr ⟨calmDown, calm⟩
        · rw [up, shown]
          exact owes
        · rw [up]
          exact covered
  · intro reader conn' registration' linked joined unlike
    exact tracks_served sound same after governed.present quiet decks linked joined stays
      remains unlike fun registration was => governed.tracks reader conn' registration linked was unlike

end Serving

end World

end DjApp.System
