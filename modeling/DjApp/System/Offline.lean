import DjApp.System.Governing

/-! A client that is not connected: it knows no peers, and the first frame it hears is its
welcome. -/

set_option autoImplicit false

namespace DjApp.System

open Library
open Server (ConnId Frame Room RoomConfig Transition framesTo)
open Client (ClientApp isWelcome)

/-- A client that is not connected changes nothing by closing. -/
theorem closed_of_offline {app : ClientApp} (coherent : app.Coherent)
    (lost : app.component.connected = false) (alone : app.component.peers = []) :
    app.closed = app := by
  obtain ⟨unnamed, observer⟩ := coherent.offline lost
  have published := coherent.connected
  have role := coherent.role
  obtain ⟨⟨manager, publisher, own, shown, peers, connected⟩, lastSeen⟩ := app
  obtain ⟨online, claimed, pending, lastSendMs, hasSentBefore, timerRunning⟩ := publisher
  dsimp only at lost alone unnamed observer published role
  subst lost alone unnamed observer published role
  rfl

namespace World

/-- What holds of the clients that are not connected. -/
structure Offline (world : World) : Prop where
  unlinked : ∀ key, world.links key = none → (world.apps key).component.connected = false
  peers : ∀ key, (world.apps key).component.connected = false →
    (world.apps key).component.peers = []
  welcome : ∀ key conn, world.links key = some conn →
    (world.apps key).component.connected = false → world.room.conns conn ≠ none →
    ∃ frame rest, (world.conns conn).down = frame :: rest ∧ isWelcome frame = true

namespace Offline

theorem initial : Offline .initial where
  unlinked _ _ := rfl
  peers _ _ := rfl
  welcome key conn linked := by cases linked

variable {config : RoomConfig} {world : World} (offline : Offline world)

include offline

/-- A client's step that takes nothing from its room. -/
theorem act (key : ℕ) {done : ClientApp × List Client.ClientMessage}
    (stands : done.1.standing = (world.apps key).standing) : Offline (world.act key done) := by
  have standing : ∀ other, ((world.act key done).apps other).standing =
      (world.apps other).standing := by
    intro other
    by_cases same : other = key
    · subst same
      rw [apps_act_self]
      exact stands
    · rw [apps_act_of_ne same]
  have connected : ∀ other, ((world.act key done).apps other).component.connected =
      (world.apps other).component.connected := fun other =>
    congrArg Client.Standing.connected (standing other)
  have peers : ∀ other, ((world.act key done).apps other).component.peers =
      (world.apps other).component.peers := fun other =>
    congrArg (fun standing : Client.Standing => standing.known.peers) (standing other)
  constructor
  · intro other free
    rw [connected]
    exact offline.unlinked other free
  · intro other lost
    rw [connected] at lost
    rw [peers]
    exact offline.peers other lost
  · intro other conn linked lost registered
    rw [connected] at lost
    rw [down_act]
    exact offline.welcome other conn linked lost registered

/-- A call of the server tells a connection that it lets in first of all that it is in. -/
theorem call (proper : Proper config world) (call : Server.Call) {connection : Connection}
    (down : connection.down = (world.conns call.conn).down) :
    Offline ((world.setConn call.conn connection).call config call) := by
  have transition := Server.step_transition config world.room call
  refine ⟨offline.unlinked, offline.peers, ?_⟩
  intro key conn linked lost registered
  have heard : (((world.setConn call.conn connection).call config call).conns conn).down =
      (world.conns conn).down ++ framesTo conn (world.room.step config call).2.effects := by
    rw [World.call, Connection.down_hear]
    by_cases caller : conn = call.conn
    · subst caller
      simp [World.setConn, down]
    · simp [World.setConn, caller]
  rw [heard]
  cases before : world.room.conns conn with
  | some registration =>
      have known : world.room.conns conn ≠ none := by simp [before]
      obtain ⟨frame, rest, shape, welcome⟩ := offline.welcome key conn linked lost known
      exact ⟨frame, _, by rw [shape, List.cons_append], welcome⟩
  | none =>
      obtain ⟨_, id, name, shape, _⟩ := joined transition before registered
      have valid := transition.valid proper.valid
      rw [shape] at valid
      rw [proper.silent conn before, List.nil_append, shape,
        Server.framesTo_welcome valid.distinctConns]
      exact ⟨_, [], rfl, rfl⟩

theorem deliver (proper : Proper config world) {key : ℕ} {conn : ConnId}
    (linked : world.links key = some conn) {frame : Frame} {rest : List Frame}
    (first : (world.conns conn).down = frame :: rest) :
    Offline ((world.setConn conn { world.conns conn with down := rest }).act key
      ((world.apps key).receive frame, (world.apps key).replies frame)) := by
  have registered : world.room.conns conn ≠ none := by
    intro unknown
    rw [proper.silent conn unknown] at first
    cases first
  have online : ((world.apps key).receive frame).component.connected = true := by
    cases lost : (world.apps key).component.connected with
    | true =>
        cases frame with
        | welcome => rfl
        | peerJoined | peerLeft | roleChanged | delta | snapshot | error => exact lost
    | false =>
        obtain ⟨head, tail, shape, welcome⟩ := offline.welcome key conn linked lost registered
        obtain ⟨rfl, rfl⟩ := List.cons.inj (first.symm.trans shape)
        cases frame with
        | welcome => rfl
        | peerJoined | peerLeft | roleChanged | delta | snapshot | error => cases welcome
  have others : ∀ other, other ≠ key → ((world.setConn conn { world.conns conn with
      down := rest }).act key ((world.apps key).receive frame,
        (world.apps key).replies frame)).apps other = world.apps other := by
    intro other unlike
    simp [World.act, World.setConn, unlike]
  have own : ((world.setConn conn { world.conns conn with down := rest }).act key
      ((world.apps key).receive frame, (world.apps key).replies frame)).apps key =
        (world.apps key).receive frame := by
    simp [World.act]
  constructor
  · intro other free
    have unlike : other ≠ key := by
      rintro rfl
      cases linked.symm.trans free
    rw [others other unlike]
    exact offline.unlinked other free
  · intro other lost
    by_cases unlike : other = key
    · subst unlike
      rw [own, online] at lost
      cases lost
    · rw [others other unlike] at lost ⊢
      exact offline.peers other lost
  · intro other elsewhere otherLinked lost known
    by_cases unlike : other = key
    · subst unlike
      rw [own, online] at lost
      cases lost
    · have apart : elsewhere ≠ conn := by
        rintro rfl
        exact unlike (proper.alone other key _ otherLinked linked)
      rw [others other unlike] at lost
      rw [down_act]
      simpa [World.setConn, apart] using offline.welcome other elsewhere otherLinked lost known

theorem connect (proper : Proper config world) (key : ℕ) (connection : Connection) :
    Offline
      { world with
        apps := Function.update world.apps key (world.apps key).connect
        links := Function.update world.links key (some world.nextConn)
        conns := Function.update world.conns world.nextConn connection
        nextConn := world.nextConn + 1 } := by
  have component : ∀ other, (Function.update world.apps key (world.apps key).connect
      other).component = (world.apps other).component := by
    intro other
    by_cases same : other = key
    · subst same
      rw [Function.update_self]
      rfl
    · rw [Function.update_of_ne same]
  constructor
  · intro other free
    dsimp only at free ⊢
    have unlike : other ≠ key := by
      rintro rfl
      rw [Function.update_self] at free
      cases free
    rw [Function.update_of_ne unlike] at free
    rw [component]
    exact offline.unlinked other free
  · intro other lost
    dsimp only at lost ⊢
    rw [component] at lost ⊢
    exact offline.peers other lost
  · intro other conn linked lost known
    rcases proper.link_connect linked with ⟨rfl, rfl⟩ | ⟨same, before, unlike⟩
    · exact absurd (proper.unused world.nextConn le_rfl).2 known
    · dsimp only at lost ⊢
      rw [component] at lost
      rw [Function.update_of_ne unlike]
      exact offline.welcome other conn before lost known

theorem leave (key : ℕ) :
    Offline
      { world with
        apps := Function.update world.apps key (world.apps key).closed
        links := Function.update world.links key none } := by
  constructor
  · intro other free
    by_cases same : other = key
    · subst same
      dsimp only
      rw [Function.update_self]
      rfl
    · dsimp only at free ⊢
      rw [Function.update_of_ne same] at free ⊢
      exact offline.unlinked other free
  · intro other lost
    by_cases same : other = key
    · subst same
      dsimp only
      rw [Function.update_self]
      rfl
    · dsimp only at lost ⊢
      rw [Function.update_of_ne same] at lost ⊢
      exact offline.peers other lost
  · intro other conn linked lost known
    obtain ⟨unlike, before⟩ := Proper.link_leave linked
    dsimp only at lost
    rw [Function.update_of_ne unlike] at lost
    exact offline.welcome other conn before lost known

theorem step (proper : Proper config world) {after : World} (stepped : Step config world after) :
    Offline after := by
  cases stepped with
  | connect key name room unlinked built => exact offline.connect proper key _
  | leave key conn linked settled => exact offline.leave key
  | drop conn listening => exact offline.call proper (.disconnect conn) rfl
  | serve conn message rest draws listening first =>
      exact offline.call proper (.message conn message.asJs draws) rfl
  | deliver key conn now frame rest linked first settled =>
      have valid : frame.Valid config := proper.frames conn frame (by simp [first])
      rw [Client.dispatch_toVar _ now valid]
      exact offline.deliver proper linked first
  | claimControl key conn linked | releaseControl key conn linked => exact offline.act key rfl
  | edit key now delta allowed named => exact offline.act key (ClientApp.standing_edit _ now delta)
  | tick key now => exact offline.act key rfl

end Offline

end World

theorem ReachableBy.offline {config : RoomConfig} {world : World} (reachable : Reachable config world) :
    world.Offline := by
  induction reachable with
  | initial => exact .initial
  | step reachable stepped bounded _ ih => exact ih.step reachable.proper stepped

end DjApp.System
