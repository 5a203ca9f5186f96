import DjApp.System.ThreadedScenario

/-! A member's client shows the decks of the room as soon as it has heard of all that the
controller has done, whatever goes on elsewhere; with two threads as with one. -/

set_option autoImplicit false

namespace DjApp.System

open Library
open Server (ConnId Frame Registration Room RoomConfig IsMember)
open Client (ClientApp ClientMessage ClientThreads)

/-- Nothing of the controller's is pending, or on its way to the server or back. -/
structure Published (world : World) (key : ℕ) (conn : ConnId) : Prop where
  linked : world.links key = some conn
  idle : (world.apps key).Idle
  up : (world.conns conn).up = []
  down : (world.conns conn).down = []

/-- A member that has heard everything shows what the controller shows, and the room has. -/
theorem ReachableBy.shows {config : RoomConfig} {world : World} (reachable : Reachable config world)
    (counted : world.room.serverSeq < 2 ^ 31) {controller key : ℕ} {holder conn : ConnId}
    {registration member : Registration} (holds : IsMember world.room holder registration)
    (controls : world.room.controllerId = some registration.id)
    (published : Published world controller holder) (linked : world.links key = some conn)
    (joined : IsMember world.room conn member) (heard : (world.conns conn).down = []) (deck : DeckId) :
    world.room.decks.lookup deck =
      some ((world.apps key).component.stateManager.getState deck).toDeck := by
  obtain ⟨sound, attended, governing⟩ := reachable.coherent counted
  obtain ⟨settled, governed⟩ :=
    governing controller holder registration published.linked holds controls
  obtain ⟨shows, complete⟩ : (world.apps controller).component.stateManager.states =
      roomDecks world.room ∧ ∀ deck, settled deck := by
    cases governed.steers with
    | granted earlier later queue =>
        rw [published.down] at queue
        cases earlier <;> cases queue
    | holds role calm owes covered =>
        rw [published.up] at owes covered
        refine ⟨owes.symm.trans (Client.SyncPublisher.settle_of_idle published.idle _), fun deck => ?_⟩
        rcases covered deck with done | ⟨delta, listed, _⟩
        · exact done
        · cases listed
  have image : world.room.decks.lookup deck = some (roomDecks world.room deck).toDeck :=
    toDeck_roomDecks sound.images (governed.present deck (complete deck))
  by_cases same : conn = holder
  · subst same
    obtain rfl := reachable.proper.alone key controller conn linked published.linked
    rw [image, ← shows]
    rfl
  · have tracks := governed.tracks key conn member linked joined same
    rw [heard] at tracks
    cases tracks with
    | locked locked tracks =>
        rw [image, ← tracks deck (complete deck)]
        rfl
    | awaits earlier turn later queue => cases earlier <;> cases queue

/-- The threads of the clients bring nothing about in the room or in a client that clients
of one thread do not. -/
theorem threads_refine {digits : ℚ → ℚ} {config : RoomConfig} {threaded : ThreadedWorld}
    (reachable : ThreadedReachableBy (ClientMessage.toJs digits) config threaded)
    (counted : threaded.room.serverSeq < 2 ^ 31) :
    ∃ world, ReachableBy (ClientMessage.toJs digits) config world ∧ world.room = threaded.room ∧
      ∀ key, (world.apps key).component = (threaded.clients key).component := by
  obtain ⟨world, reached, represents⟩ := reachable.represented counted
  exact ⟨world, reached, represents.room, represents.components⟩

/-- Two of Ana's changes wait in Bea's message queue, where a client of one thread would have
them still on the wire. -/
theorem threads_refine_waiting :
    ∃ threaded, threadedEveningWorld [] = some threaded ∧
      (threaded.clients 1).queue.length = 2 ∧
      ∃ world, ReachableBy (ClientMessage.toJs Client.fifteenPlaces) party world ∧
        world.room = threaded.room ∧
        ∀ key, (world.apps key).component = (threaded.clients key).component := by
  obtain ⟨threaded, played, waits, counted, _⟩ := threadedEvening_waits
  have reachable := ThreadedReachableBy.initial.play played
  exact ⟨threaded, played, waits, threads_refine reachable (by rw [counted]; norm_num)⟩

namespace ThreadedWorld

/-- The client has run the callbacks of all that has been sent to it on this connection. -/
structure Heard (threaded : ThreadedWorld) (key : ℕ) (conn : ConnId) : Prop where
  linked : threaded.links key = some conn
  down : (threaded.conns conn).down = []
  run : (threaded.clients key).queue = []

theorem Heard.represented {threaded : ThreadedWorld} {world : World} {key : ℕ} {conn : ConnId}
    (heard : threaded.Heard key conn) (represents : Represents threaded world) :
    world.links key = some conn ∧ (world.conns conn).down = [] := by
  cases represents.phase key with
  | linked own flag frames near far alive socket down pending =>
      obtain rfl : conn = own := Option.some.inj (heard.linked.symm.trans near)
      rw [heard.run] at pending
      obtain rfl : frames = [] := List.map_eq_nil_iff.mp pending.symm
      exact ⟨far, down.trans heard.down⟩
  | lost own flag frames dropped reason near => cases heard.linked.symm.trans near
  | off near => cases heard.linked.symm.trans near

end ThreadedWorld

/-- A member whose client has run all its callbacks knows whether it controls the room, and
its own controls are locked exactly if another member does. -/
theorem threads_lock {digits : ℚ → ℚ} {config : RoomConfig} {threaded : ThreadedWorld}
    (reachable : ThreadedReachableBy (ClientMessage.toJs digits) config threaded)
    (counted : threaded.room.serverSeq < 2 ^ 31) {key : ℕ} {conn : ConnId} {registration : Registration}
    (joined : IsMember threaded.room conn registration) (heard : threaded.Heard key conn) :
    ((threaded.clients key).component.role = .controller ↔
        threaded.room.controllerId = some registration.id) ∧
      ((threaded.clients key).component.canControlLocally = false ↔
        ∃ other, threaded.room.controllerId = some other ∧ other ≠ registration.id) := by
  obtain ⟨world, reached, represents⟩ := reachable.represented counted
  obtain ⟨linked, silent⟩ := heard.represented represents
  rw [← represents.components key]
  rw [← represents.room] at joined counted ⊢
  obtain ⟨sound, _, _⟩ := reached.meant.coherent counted
  have follows := sound.follows key conn registration linked joined
  rw [silent] at follows
  have stands : (world.apps key).standing = ⟨knowledgeOf world.room conn registration, true⟩ :=
    follows.stands
  have role : (world.apps key).component.role = world.room.roleOfId registration.id :=
    congrArg (·.known.role) stands
  have named : ∀ id, world.room.roleOfId id = .controller ↔ world.room.controllerId = some id := by
    intro id
    unfold Server.Room.roleOfId
    split
    · rename_i controls
      simp [controls]
    · rename_i free
      simp [free]
  constructor
  · rw [role, named]
  · rw [ClientApp.locked_iff, stands, knowledgeOf, Client.Standing.locked_ofReplica]
    constructor
    · rintro ⟨observes, peer, listed, controls⟩
      obtain ⟨_, _, _, own⟩ := (Server.mem_peersFor_iff sound.valid).mp listed
      refine ⟨peer.clientId, (named _).mp (own.symm.trans controls), ?_⟩
      intro same
      rw [same] at own
      exact observes (own.symm.trans controls)
    · rintro ⟨other, controls, unlike⟩
      obtain ⟨client, listed, rfl⟩ := List.mem_map.mp (sound.valid.controllerLive other controls)
      obtain ⟨name, registered⟩ := Server.entry_registration sound.valid listed
      have holds : IsMember world.room client.2 ⟨client.1, name⟩ :=
        ⟨registered, AssocList.lookup_of_mem sound.valid.distinctIds listed⟩
      have apart : client.2 ≠ conn := by
        intro same
        rw [same] at holds
        have twice := holds.registered.symm.trans joined.registered
        exact unlike (congrArg Registration.id (Option.some.inj twice))
      refine ⟨?_, ⟨client.1, name, .controller⟩, ?_, rfl⟩
      · intro held
        have own := (named registration.id).mp held
        exact unlike (Option.some.inj (controls.symm.trans own))
      · exact (Server.mem_peersFor_iff sound.valid).mpr
          ⟨client.2, apart, holds, ((named _).mpr controls).symm⟩

section Evening

variable {threaded : ThreadedWorld} {key : ℕ} {conn : ConnId}

theorem heard_of_played (linked : threaded.links key = some conn)
    (down : (threaded.conns conn).down = []) (run : (threaded.clients key).queue.length = 0) :
    threaded.Heard key conn :=
  ⟨linked, down, List.length_eq_zero_iff.mp run⟩

/-- Bea's controls are locked, as Ana has control. -/
theorem threads_lock_evening :
    ∃ threaded, threadedEveningWorld beaHears = some threaded ∧
      (threaded.clients 1).component.canControlLocally = false ∧
      (threaded.clients 1).component.role ≠ .controller := by
  obtain ⟨threaded, played, _, ⟨linked, down, run⟩, _, hers, controls, clients, counted, _⟩ :=
    threadedEvening_played
  have joined : IsMember threaded.room 1 bea := ⟨hers, by rw [clients]; rfl⟩
  obtain ⟨role, locked⟩ := threads_lock (ThreadedReachableBy.initial.play played)
    (by rw [counted]; norm_num) joined (heard_of_played linked down run)
  have unlike : anaId ≠ bea.id := by decide
  refine ⟨threaded, played, locked.mpr ⟨anaId, controls, unlike⟩, fun holds => unlike ?_⟩
  exact Option.some.inj (controls.symm.trans (role.mp holds))

end Evening

end DjApp.System
