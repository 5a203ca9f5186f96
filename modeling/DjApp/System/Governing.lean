import DjApp.System.Control

/-! Control of the room, step by step. -/

set_option autoImplicit false

namespace DjApp.System

open Library
open Server (ConnId Frame Room RoomConfig Registration IsMember Transition framesTo)
open Client (ClientApp ClientMessage Decks StateDelta Standing deltasOf)

theorem receive_calm {app : ClientApp} {frame : Frame} (calm : Calm frame) :
    (app.receive frame).component.role = app.component.role ∧
      app.replies frame = [] ∧ ∀ decks, app.Owes decks → (app.receive frame).Owes decks := by
  cases frame with
  | peerJoined | peerLeft | error => exact ⟨rfl, rfl, fun _ owes => owes⟩
  | welcome | roleChanged | delta | snapshot => cases calm

/-- The frame that grants a client control makes it send its decks. -/
theorem receive_granted {app : ClientApp} {id : Server.ClientId}
    (own : app.standing.known.ownClientId = id.text)
    (observes : app.standing.known.role = .observer) :
    (app.receive (.roleChanged id .controller)).component.role = .controller ∧
      app.replies (.roleChanged id .controller) = app.component.pushFullResync := by
  have name : id.text = app.component.ownClientId := own.symm
  have role : app.component.role = .observer := observes
  constructor
  · simp [ClientApp.receive, Client.MainComponent.receive, Client.Knowledge.receive,
      Client.MainComponent.knowledge, name]
  · simp [ClientApp.replies, name, role]

theorem Steers.deliver {room : Room} {id : Server.ClientId} {settled : DeckId → Prop}
    {app : ClientApp} {connection : Connection} (steers : Steers room id settled app connection)
    {frame : Frame} {rest : List Frame} (first : connection.down = frame :: rest)
    (idle : Moved app (app.receive frame) → app.Idle) :
    Steers room id settled (app.receive frame)
      { connection with down := rest, up := connection.up ++ app.replies frame } := by
  cases steers with
  | granted earlier later queue calm own observes =>
      rw [first] at queue
      cases earlier with
      | nil =>
          obtain ⟨rfl, rfl⟩ := List.cons.inj queue
          obtain ⟨controls, resync⟩ := receive_granted own observes
          have role : app.component.role = .observer := observes
          have moved : Moved app (app.receive (.roleChanged id .controller)) :=
            .inl (by rw [controls, role]; decide)
          have pending : (app.receive (.roleChanged id .controller)).component.syncPublisher.pending =
              app.component.syncPublisher.pending := rfl
          refine .holds controls calm ?_ fun deck => .inr ?_
          · rw [resync, Client.deltasOf_append, Decks.overlayAll_append,
              Client.overlayAll_pushFullResync, ClientApp.Owes,
              Client.SyncPublisher.settle_congr pending]
            exact Client.SyncPublisher.settle_of_idle (idle moved) _
          · refine ⟨Client.fullResyncDelta deck (app.component.stateManager.getState deck), ?_, rfl,
              full_fullResyncDelta _ _⟩
            rw [resync, Client.deltasOf_append]
            apply List.mem_append_right _
            cases deck <;> simp [Client.MainComponent.pushFullResync, deltasOf]
      | cons head earlier =>
          obtain ⟨rfl, rfl⟩ := List.cons.inj queue
          refine .granted earlier later rfl calm ?_ ?_
          · rw [app.standing_receive]
            exact own
          · rw [app.standing_receive]
            exact observes
  | holds controls calm owes covered =>
      rw [first] at calm
      obtain ⟨head, others⟩ := List.forall_mem_cons.mp calm
      obtain ⟨role, silent, kept⟩ := @receive_calm app frame head
      refine .holds (role.trans controls) others ?_ ?_
      · rw [silent, List.append_nil]
        exact kept _ owes
      · rw [silent, List.append_nil]
        exact covered

namespace World

variable {config : RoomConfig} {world : World}

theorem up_act_of_listening {key : ℕ} {conn : ConnId} (linked : world.links key = some conn)
    (listening : (world.conns conn).listening = true) (done : ClientApp × List ClientMessage) :
    ((world.act key done).conns conn).up = (world.conns conn).up ++ done.2 := by
  simp [conns_act_of_linked world key done linked, Connection.send, listening]

@[simp] theorem apps_act_self (key : ℕ) (done : ClientApp × List ClientMessage) :
    (world.act key done).apps key = done.1 := by
  simp [act]

theorem apps_act_of_ne {key other : ℕ} (unlike : other ≠ key)
    (done : ClientApp × List ClientMessage) :
    (world.act key done).apps other = world.apps other := by
  simp [act, unlike]

/-- A client's step that takes nothing from its room leaves the room under its controller. -/
theorem Controlled.act (controlled : Controlled world) (sound : Sound config world)
    (attended : Attended world) (key : ℕ) {done : ClientApp × List ClientMessage}
    (stands : done.1.standing = (world.apps key).standing)
    (kept : (world.apps key).standing.Locked →
      done.1.component.stateManager.states = (world.apps key).component.stateManager.states)
    (owes : (world.apps key).component.role = .controller → ∀ decks : Decks,
      (world.apps key).Owes decks → done.1.Owes (decks.overlayAll (deltasOf done.2))) :
    Controlled (world.act key done) := by
  intro holder conn registration (linked : world.links holder = some conn) member controls
  obtain ⟨settled, governed⟩ := controlled holder conn registration linked member controls
  refine ⟨settled, governed.present, ?_, fun other conn' registration' otherLinked joined unlike => ?_⟩
  · by_cases own : holder = key
    · subst own
      rw [apps_act_self]
      have listening := attended.absent conn registration member
      have sent := up_act_of_listening linked listening done
      cases governed.steers with
      | granted earlier later queue calm self observes =>
          exact .granted earlier later (by rw [down_act]; exact queue) calm (stands ▸ self)
            (stands ▸ observes)
      | holds role calm owed covered =>
          refine .holds ?_ (by rw [down_act]; exact calm) ?_ fun deck => ?_
          · exact (congrArg (·.known.role) stands).trans role
          · rw [sent, Client.deltasOf_append, Decks.overlayAll_append]
            exact owes role _ owed
          · rw [sent, Client.deltasOf_append]
            exact (covered deck).imp_right fun ⟨delta, listed, full⟩ =>
              ⟨delta, List.mem_append_left _ listed, full⟩
    · have foreign : world.links key ≠ some conn := fun same =>
        own (sound.alone holder key conn linked same)
      rw [apps_act_of_ne own, conns_act_of_ne world key done foreign]
      exact governed.steers
  · have tracks := governed.tracks other conn' registration' otherLinked joined unlike
    rw [down_act]
    by_cases own : other = key
    · subst own
      rw [apps_act_self]
      exact tracks.congr stands kept
    · rw [apps_act_of_ne own]
      exact tracks

theorem Controlled.deliver (controlled : Controlled world) (sound : Sound config world)
    (attended : Attended world) {key : ℕ} {conn : ConnId} (linked : world.links key = some conn)
    {frame : Frame} {rest : List Frame} (first : (world.conns conn).down = frame :: rest)
    (idle : Moved (world.apps key) ((world.apps key).receive frame) → (world.apps key).Idle) :
    Controlled ((world.setConn conn { world.conns conn with down := rest }).act key
      ((world.apps key).receive frame, (world.apps key).replies frame)) := by
  let taken := world.setConn conn { world.conns conn with down := rest }
  have takenLinked : taken.links key = some conn := linked
  intro holder held registration heldLinked member controls
  obtain ⟨settled, governed⟩ := controlled holder held registration heldLinked member controls
  refine ⟨settled, governed.present, ?_, fun other conn' registration' otherLinked joined unlike => ?_⟩
  · by_cases own : holder = key
    · subst own
      obtain rfl : conn = held := Option.some.inj (linked.symm.trans heldLinked)
      have listening := attended.absent conn registration member
      have connection : (taken.act holder ((world.apps holder).receive frame,
          (world.apps holder).replies frame)).conns conn =
          { world.conns conn with
            down := rest, up := (world.conns conn).up ++ (world.apps holder).replies frame } := by
        rw [conns_act_of_linked taken holder _ takenLinked]
        simp [Connection.send, taken, setConn, listening]
      rw [apps_act_self, connection]
      exact governed.steers.deliver first idle
    · have foreign : taken.links key ≠ some held := fun same =>
        own (sound.alone holder key held heldLinked same)
      have other : held ≠ conn := by
        rintro rfl
        exact foreign takenLinked
      rw [apps_act_of_ne own, conns_act_of_ne taken key _ foreign]
      simpa [taken, setConn, other] using governed.steers
  · have tracks := governed.tracks other conn' registration' otherLinked joined unlike
    rw [down_act]
    by_cases own : other = key
    · subst own
      obtain rfl : conn = conn' := Option.some.inj (linked.symm.trans otherLinked)
      rw [apps_act_self]
      rw [first] at tracks
      simpa [taken, setConn] using tracks.deliver
    · have foreign : conn' ≠ conn := by
        rintro rfl
        exact own (sound.alone other key _ otherLinked linked)
      rw [apps_act_of_ne own]
      simpa [taken, setConn, foreign] using tracks

theorem Controlled.connect (controlled : Controlled world) (sound : Sound config world) (key : ℕ)
    (connection : Connection) :
    Controlled
      { world with
        apps := Function.update world.apps key (world.apps key).connect
        links := Function.update world.links key (some world.nextConn)
        conns := Function.update world.conns world.nextConn connection
        nextConn := world.nextConn + 1 } := by
  -- The new connection has no member yet, so that nothing is said of the client.
  have older : ∀ {other conn registration},
      Function.update world.links key (some world.nextConn) other = some conn →
      IsMember world.room conn registration →
      other ≠ key ∧ conn ≠ world.nextConn ∧ world.links other = some conn := by
    intro other conn registration linked member
    have known : conn ≠ world.nextConn := by
      rintro rfl
      have registered := member.registered
      rw [(sound.unused world.nextConn le_rfl).2] at registered
      cases registered
    have unlike : other ≠ key := by
      rintro rfl
      simp only [Function.update_self, Option.some.injEq] at linked
      exact known linked.symm
    exact ⟨unlike, known, by simpa [unlike] using linked⟩
  intro holder conn registration linked member controls
  obtain ⟨unlike, known, before⟩ := older linked member
  obtain ⟨settled, governed⟩ := controlled holder conn registration before member controls
  refine ⟨settled, governed.present, ?_, fun other conn' registration' otherLinked joined foreign => ?_⟩
  · simpa [unlike, known] using governed.steers
  · obtain ⟨otherUnlike, otherKnown, otherBefore⟩ := older otherLinked joined
    simpa [otherUnlike, otherKnown] using
      governed.tracks other conn' registration' otherBefore joined foreign

theorem Controlled.leave (controlled : Controlled world) (key : ℕ) :
    Controlled
      { world with
        apps := Function.update world.apps key (world.apps key).closed
        links := Function.update world.links key none } := by
  have kept : ∀ {other conn}, Function.update world.links key none other = some conn →
      other ≠ key ∧ world.links other = some conn := by
    intro other conn linked
    have unlike : other ≠ key := by
      rintro rfl
      simp at linked
    exact ⟨unlike, by simpa [unlike] using linked⟩
  intro holder conn registration linked member controls
  obtain ⟨unlike, before⟩ := kept linked
  obtain ⟨settled, governed⟩ := controlled holder conn registration before member controls
  refine ⟨settled, governed.present, ?_, fun other conn' registration' otherLinked joined foreign => ?_⟩
  · simpa [unlike] using governed.steers
  · obtain ⟨otherUnlike, otherBefore⟩ := kept otherLinked
    simpa [otherUnlike] using governed.tracks other conn' registration' otherBefore joined foreign

end World

end DjApp.System
