import DjApp.System.ThreadedRefinement

/-! Runs of clients with two threads that are written down move by move and played. -/

set_option autoImplicit false

namespace DjApp.System

open Library
open Server (ConnId Frame Room RoomConfig)
open Client (ClientMessage ClientThreads StateDelta ThreadEvent)

/-- The next step of a run in which nobody leaves, by what is free to choose in it. -/
inductive ThreadedMove where
  | receive (key : ℕ)
  | callback (key : ℕ) (now : ℚ)
  | edit (key : ℕ) (now : ℚ) (delta : StateDelta)
  | tick (key : ℕ) (now : ℚ)
  | claimButton (key : ℕ)
  | connectButton (key : ℕ) (name room : String)
  | connected (key : ℕ)
  | serve (conn : ConnId) (id : Server.ClientId)

instance (before after : ClientThreads) : Decidable (Settled before after) :=
  inferInstanceAs (Decidable (Moved (appOf before) (appOf after) → (appOf before).Idle))

def ThreadedWorld.Legible (digits : ℚ → ℚ) (world : ThreadedWorld) : Prop :=
  ∀ conn ∈ List.range world.nextConn, ∀ message ∈ (world.conns conn).up, message.Exact digits

instance (digits : ℚ → ℚ) (world : ThreadedWorld) : Decidable (world.Legible digits) :=
  inferInstanceAs (Decidable (∀ conn ∈ List.range world.nextConn, _))

section Playing

variable (digits : ℚ → ℚ) (config : RoomConfig)

/-- The world after a move, if it is one of a run. -/
def ThreadedWorld.after (world : ThreadedWorld) : ThreadedMove → Option ThreadedWorld
  | .receive key =>
      match world.links key with
      | none => none
      | some conn =>
          match (world.conns conn).down with
          | [] => none
          | frame :: rest =>
              some ((world.setConn conn { world.conns conn with down := rest }).turn key
                (.network (.message (inbound frame))))
  | .callback key now =>
      if Settled (world.clients key) ((world.turn key (.message (.callback now))).clients key) then
        some (world.turn key (.message (.callback now)))
      else none
  | .edit key now delta =>
      if (world.clients key).component.canControlLocally = true ∧ delta.NamesTrack then
        some (world.turn key (.message (.edit now delta)))
      else none
  | .tick key now => some (world.turn key (.message (.tick now)))
  | .claimButton key => some (world.turn key (.message .claimButton))
  | .connectButton key name room => some (world.turn key (.message (.connectButton name room)))
  | .connected key =>
      match (world.clients key).stopping with
      | some (.connect name room) =>
          if Client.isValidHelloName name = true ∧ Client.isValidHelloRoom room = true then
            some { (world.turn key .socketStopped).setLink key (some world.nextConn) with
              conns := Function.update world.conns world.nextConn
                { up := [.hello name room], listening := true }
              nextConn := world.nextConn + 1 }
          else none
      | some .disconnect | none => none
  | .serve conn id =>
      match (world.conns conn).up with
      | [] => none
      | message :: rest =>
          if (world.conns conn).listening = true then
            some ((world.setConn conn { world.conns conn with up := rest }).call config
              (.message conn (message.toJs digits) fun _ => id))
          else none

/-- The world after these moves, if they make a run of nine members at most whose messages
are read as they were meant, and the room does not count past an `int`. -/
def ThreadedWorld.play (world : ThreadedWorld) : List ThreadedMove → Option ThreadedWorld
  | [] => some world
  | move :: rest =>
      match world.after digits config move with
      | none => none
      | some next =>
          if (next.room.clients.length ≤ 9 ∧ next.room.serverSeq < 2 ^ 31) ∧
              next.Legible digits then
            next.play rest
          else none

variable {digits config} {world next : ThreadedWorld} {move : ThreadedMove}

theorem ThreadedWorld.stepBy_of_after (moved : world.after digits config move = some next) :
    ThreadedStepBy (ClientMessage.toJs digits) config world next := by
  cases move with
  | receive key =>
      simp only [ThreadedWorld.after] at moved
      split at moved
      · cases moved
      · rename_i conn linked
        split at moved
        · cases moved
        · rename_i frame rest first
          obtain rfl := Option.some.inj moved
          exact .receive world key conn frame rest linked first
  | callback key now =>
      obtain ⟨settled, rfl⟩ := guarded_eq_some moved
      exact .callback world key now settled
  | edit key now delta =>
      obtain ⟨⟨allowed, named⟩, rfl⟩ := guarded_eq_some moved
      exact .edit world key now delta allowed named
  | tick key now =>
      obtain rfl := Option.some.inj moved
      exact .tick world key now
  | claimButton key =>
      obtain rfl := Option.some.inj moved
      exact .claimButton world key
  | connectButton key name room =>
      obtain rfl := Option.some.inj moved
      exact .connectButton world key name room
  | connected key =>
      simp only [ThreadedWorld.after] at moved
      split at moved
      · rename_i name room waiting
        obtain ⟨⟨named, coded⟩, rfl⟩ := guarded_eq_some moved
        refine .connected world key name room waiting ?_
        rw [Client.buildHello, named, coded]
        rfl
      · cases moved
      · cases moved
  | serve conn id =>
      simp only [ThreadedWorld.after] at moved
      split at moved
      · cases moved
      · rename_i message rest first
        obtain ⟨listening, rfl⟩ := guarded_eq_some moved
        exact .serve world conn message rest _ listening first

theorem ThreadedReachableBy.after
    (reachable : ThreadedReachableBy (ClientMessage.toJs digits) config world)
    (moved : world.after digits config move = some next)
    (bounded : next.room.clients.length ≤ 9) (counted : next.room.serverSeq < 2 ^ 31)
    (legible : next.Legible digits) :
    ThreadedReachableBy (ClientMessage.toJs digits) config next := by
  have stepped := ThreadedWorld.stepBy_of_after moved
  have meant := reachable.meant.step (stepped.meant reachable.exact) bounded
  obtain ⟨far, reached, represents⟩ := meant.represented counted
  refine reachable.step stepped bounded fun conn message sent => ?_
  by_cases used : conn < next.nextConn
  · exact ClientMessage.toJs_of_exact (legible conn (List.mem_range.mpr used) message sent)
  · -- A connection that was never opened has nothing on it.
    rw [← represents.up conn, (reached.proper.unused conn
      (represents.nextConn ▸ not_lt.mp used)).1] at sent
    cases sent

theorem ThreadedReachableBy.play {moves : List ThreadedMove} {final : ThreadedWorld}
    (reachable : ThreadedReachableBy (ClientMessage.toJs digits) config world)
    (played : world.play digits config moves = some final) :
    ThreadedReachableBy (ClientMessage.toJs digits) config final := by
  induction moves generalizing world with
  | nil =>
      obtain rfl := Option.some.inj played
      exact reachable
  | cons move rest ih =>
      rw [ThreadedWorld.play] at played
      split at played
      · cases played
      · rename_i next moved
        obtain ⟨⟨⟨bounded, counted⟩, legible⟩, played⟩ :=
          Option.ite_none_right_eq_some.mp played
        exact ih (reachable.after moved bounded counted legible) played

end Playing

section Evening

/-- Ana joins and takes control; Bea joins, and two of Ana's changes reach Bea's client before
she has heard of the first. -/
def threadedEvening : List ThreadedMove :=
  [.connectButton 0 "Ana" "party", .connected 0, .serve 0 anaId, .receive 0, .callback 0 0,
    .claimButton 0, .serve 0 anaId, .receive 0, .callback 0 0, .serve 0 anaId, .serve 0 anaId,
    .connectButton 1 "Bea" "party", .connected 1, .serve 1 beaId, .receive 1, .callback 1 0,
    .receive 0, .callback 0 0,
    .edit 0 100 (Client.loadTrackDelta .A "intro"),
    .edit 0 200 { deck := .A, playing := some true, positionSeconds := some (25 / 2) },
    .serve 0 anaId, .serve 0 anaId, .receive 1, .receive 1]

def threadedEveningWorld (moves : List ThreadedMove) : Option ThreadedWorld :=
  ThreadedWorld.play Client.fifteenPlaces party .initial (threadedEvening ++ moves)

/-- Bea's client runs the callbacks that wait for it. -/
def beaHears : List ThreadedMove := [.callback 1 300, .callback 1 300]

theorem threadedEvening_waits : ∃ threaded, threadedEveningWorld [] = some threaded ∧
    (threaded.clients 1).queue.length = 2 ∧ threaded.room.serverSeq = 4 ∧
    ((threaded.clients 1).component.stateManager.getState .A).trackId = "" := by
  decide +kernel

/-- At the end both have heard everything, with Ana's track playing. -/
theorem threadedEvening_played : ∃ threaded, threadedEveningWorld beaHears = some threaded ∧
    (threaded.links 0 = some 0 ∧ (threaded.conns 0).down = [] ∧ (threaded.conns 0).up = [] ∧
      (threaded.clients 0).queue.length = 0 ∧ (appOf (threaded.clients 0)).Idle) ∧
    (threaded.links 1 = some 1 ∧ (threaded.conns 1).down = [] ∧
      (threaded.clients 1).queue.length = 0) ∧
    threaded.room.conns 0 = some ana ∧ threaded.room.conns 1 = some bea ∧
    threaded.room.controllerId = some anaId ∧ threaded.room.clients = [(anaId, 0), (beaId, 1)] ∧
    threaded.room.serverSeq = 4 ∧
    (threaded.room.decks.lookup .A).map (fun deck => (deck.trackId, deck.positionSeconds)) =
      some (some (js "intro"), 25 / 2) := by
  decide +kernel

end Evening

end DjApp.System
