import DjApp.System.LateSequence

/-! Runs that are written down move by move and played. -/

set_option autoImplicit false

namespace DjApp.System

open Server (ConnId Frame Room RoomConfig)
open Client (ClientApp ClientMessage StateDelta)

/-- The next step of a run, by what is free to choose in it. -/
inductive Move where
  | connect (key : ℕ) (name room : String)
  | leave (key : ℕ)
  | drop (conn : ConnId)
  | serve (conn : ConnId) (id : Server.ClientId)
  | deliver (key : ℕ) (now : ℚ)
  | claimControl (key : ℕ)
  | releaseControl (key : ℕ)
  | edit (key : ℕ) (now : ℚ) (delta : StateDelta)
  | tick (key : ℕ) (now : ℚ)

/-- The client whose move it is, if any. -/
def Move.key? : Move → Option ℕ
  | .connect key _ _ | .leave key | .deliver key _ | .claimControl key | .releaseControl key
  | .edit key _ _ | .tick key _ => some key
  | .drop _ | .serve _ _ => none

instance (before after : ClientApp) : Decidable (Moved before after) :=
  inferInstanceAs (Decidable (_ ∨ _))

instance (app : ClientApp) : Decidable app.Idle :=
  inferInstanceAs (Decidable (∀ deck, app.component.syncPublisher.pending deck = none))

instance (delta : StateDelta) : Decidable delta.NamesTrack :=
  decidable_of_iff (∀ text ∈ delta.trackId, text = "" ∨ Client.isValidTrackId text = true) Iff.rfl

/-- The digits of what is in flight stand for the numbers meant. -/
def World.Legible (digits : ℚ → ℚ) (world : World) : Prop :=
  ∀ conn ∈ List.range world.nextConn, ∀ message ∈ (world.conns conn).up, message.Exact digits

instance (digits : ℚ → ℚ) (world : World) : Decidable (world.Legible digits) :=
  inferInstanceAs (Decidable (∀ conn ∈ List.range world.nextConn, _))

section Playing

variable (digits : ℚ → ℚ) (config : RoomConfig)

/-- The world after a move, if it is one of a run. -/
def World.after (world : World) : Move → Option World
  | .connect key name room =>
      if world.links key = none ∧ Client.isValidHelloName name = true ∧
          Client.isValidHelloRoom room = true then
        some { world with
          apps := Function.update world.apps key (world.apps key).connect
          links := Function.update world.links key (some world.nextConn)
          conns := Function.update world.conns world.nextConn
            { up := [.hello name room], listening := true }
          nextConn := world.nextConn + 1 }
      else none
  | .leave key =>
      if (world.links key).isSome = true ∧
          (Moved (world.apps key) (world.apps key).closed → (world.apps key).Idle) then
        some { world with
          apps := Function.update world.apps key (world.apps key).closed
          links := Function.update world.links key none }
      else none
  | .drop conn =>
      if (world.conns conn).listening = true then
        some ((world.setConn conn (world.conns conn).close).call config (.disconnect conn))
      else none
  | .serve conn id =>
      match (world.conns conn).up with
      | [] => none
      | message :: rest =>
          if (world.conns conn).listening = true then
            some ((world.setConn conn { world.conns conn with up := rest }).call config
              (.message conn (message.toJs digits) fun _ => id))
          else none
  | .deliver key now =>
      match world.links key with
      | none => none
      | some conn =>
          match (world.conns conn).down with
          | [] => none
          | frame :: rest =>
              if Moved (world.apps key) ((world.apps key).dispatch now frame.toVar).1 →
                  (world.apps key).Idle then
                some ((world.setConn conn { world.conns conn with down := rest }).act key
                  ((world.apps key).dispatch now frame.toVar))
              else none
  | .claimControl key =>
      if (world.links key).isSome = true then
        some (world.act key (world.apps key, [.claimControl]))
      else none
  | .releaseControl key =>
      if (world.links key).isSome = true then
        some (world.act key (world.apps key, [.releaseControl]))
      else none
  | .edit key now delta =>
      if (world.apps key).component.canControlLocally = true ∧ delta.NamesTrack then
        some (world.act key ((world.apps key).step (.edit now delta)))
      else none
  | .tick key now => some (world.act key ((world.apps key).step (.tick now)))

/-- The world after these moves, if they make a run of nine members at most whose messages
are read as they were meant. -/
def World.play (world : World) : List Move → Option World
  | [] => some world
  | move :: rest =>
      match world.after digits config move with
      | none => none
      | some next =>
          if next.room.clients.length ≤ 9 ∧ next.Legible digits then next.play rest else none

variable {digits config} {world next : World} {move : Move}

theorem guarded_eq_some {Value : Type} {guard : Prop} [Decidable guard] {made wanted : Value}
    (moved : (if guard then some made else none) = some wanted) : guard ∧ made = wanted := by
  obtain ⟨allowed, same⟩ := Option.ite_none_right_eq_some.mp moved
  exact ⟨allowed, Option.some.inj same⟩

theorem World.stepBy_of_after (moved : world.after digits config move = some next) :
    StepBy (ClientMessage.toJs digits) config world next := by
  cases move with
  | connect key name room =>
      obtain ⟨⟨unlinked, named, coded⟩, rfl⟩ := guarded_eq_some moved
      refine .connect world key name room unlinked ?_
      rw [Client.buildHello, named, coded]
      rfl
  | leave key =>
      obtain ⟨⟨linked, settled⟩, rfl⟩ := guarded_eq_some moved
      obtain ⟨conn, linked⟩ := Option.isSome_iff_exists.mp linked
      exact .leave world key conn linked settled
  | drop conn =>
      obtain ⟨listening, rfl⟩ := guarded_eq_some moved
      exact .drop world conn listening
  | serve conn id =>
      simp only [World.after] at moved
      split at moved
      · cases moved
      · rename_i message rest first
        obtain ⟨listening, rfl⟩ := guarded_eq_some moved
        exact .serve world conn message rest _ listening first
  | deliver key now =>
      simp only [World.after] at moved
      split at moved
      · cases moved
      · rename_i conn linked
        split at moved
        · cases moved
        · rename_i frame rest first
          obtain ⟨settled, rfl⟩ := guarded_eq_some moved
          exact .deliver world key conn now frame rest linked first settled
  | claimControl key =>
      obtain ⟨linked, rfl⟩ := guarded_eq_some moved
      obtain ⟨conn, linked⟩ := Option.isSome_iff_exists.mp linked
      exact .claimControl world key conn linked
  | releaseControl key =>
      obtain ⟨linked, rfl⟩ := guarded_eq_some moved
      obtain ⟨conn, linked⟩ := Option.isSome_iff_exists.mp linked
      exact .releaseControl world key conn linked
  | edit key now delta =>
      obtain ⟨⟨allowed, named⟩, rfl⟩ := guarded_eq_some moved
      exact .edit world key now delta allowed named
  | tick key now =>
      obtain rfl := Option.some.inj moved
      exact .tick world key now

theorem ReachableBy.after (reachable : ReachableBy (ClientMessage.toJs digits) config world)
    (moved : world.after digits config move = some next)
    (bounded : next.room.clients.length ≤ 9) (legible : next.Legible digits) :
    ReachableBy (ClientMessage.toJs digits) config next := by
  have stepped := World.stepBy_of_after moved
  have proper := reachable.meant.proper.step (stepped.meant reachable.exact)
  refine reachable.step stepped bounded fun conn message sent => ?_
  by_cases used : conn < next.nextConn
  · exact ClientMessage.toJs_of_exact (legible conn (List.mem_range.mpr used) message sent)
  · rw [(proper.unused conn (not_lt.mp used)).1] at sent
    cases sent

theorem ReachableBy.play {moves : List Move} {final : World}
    (reachable : ReachableBy (ClientMessage.toJs digits) config world)
    (played : world.play digits config moves = some final) :
    ReachableBy (ClientMessage.toJs digits) config final := by
  induction moves generalizing world with
  | nil =>
      obtain rfl := Option.some.inj played
      exact reachable
  | cons move rest ih =>
      rw [World.play] at played
      split at played
      · cases played
      · rename_i next moved
        obtain ⟨⟨bounded, legible⟩, played⟩ := Option.ite_none_right_eq_some.mp played
        exact ih (reachable.after moved bounded legible) played

end Playing

section Ending

variable {digits : ℚ → ℚ} {config : RoomConfig} {world next : World}

theorem World.after_of_ne {move : Move} (moved : world.after digits config move = some next)
    {key : ℕ} (other : move.key? ≠ some key) :
    next.links key = world.links key ∧ next.apps key = world.apps key := by
  have stepped := World.stepBy_of_after moved
  cases move with
  | connect own name room | leave own =>
      obtain ⟨_, rfl⟩ := guarded_eq_some moved
      have unlike : key ≠ own := fun same => other (congrArg some same.symm)
      exact ⟨Function.update_of_ne unlike _ _, Function.update_of_ne unlike _ _⟩
  | drop conn =>
      obtain ⟨_, rfl⟩ := guarded_eq_some moved
      exact ⟨rfl, rfl⟩
  | serve conn id =>
      simp only [World.after] at moved
      split at moved
      · cases moved
      · obtain ⟨_, rfl⟩ := guarded_eq_some moved
        exact ⟨rfl, rfl⟩
  | deliver own now =>
      have unlike : key ≠ own := fun same => other (congrArg some same.symm)
      simp only [World.after] at moved
      split at moved
      · cases moved
      · split at moved
        · cases moved
        · obtain ⟨_, rfl⟩ := guarded_eq_some moved
          exact ⟨rfl, Function.update_of_ne unlike _ _⟩
  | claimControl own | releaseControl own | edit own now delta =>
      have unlike : key ≠ own := fun same => other (congrArg some same.symm)
      obtain ⟨_, rfl⟩ := guarded_eq_some moved
      exact ⟨rfl, Function.update_of_ne unlike _ _⟩
  | tick own now =>
      have unlike : key ≠ own := fun same => other (congrArg some same.symm)
      obtain rfl := Option.some.inj moved
      exact ⟨rfl, Function.update_of_ne unlike _ _⟩

theorem World.play_of_notMem {moves : List Move} {final : World}
    (played : world.play digits config moves = some final) {key : ℕ}
    (unmoved : some key ∉ moves.map Move.key?) :
    final.links key = world.links key ∧ final.apps key = world.apps key := by
  induction moves generalizing world with
  | nil =>
      obtain rfl := Option.some.inj played
      exact ⟨rfl, rfl⟩
  | cons move rest ih =>
      rw [List.map_cons, List.mem_cons, not_or] at unmoved
      rw [World.play] at played
      split at played
      · cases played
      · rename_i next moved
        obtain ⟨_, played⟩ := Option.ite_none_right_eq_some.mp played
        have first := World.after_of_ne moved (Ne.symm unmoved.1)
        have later := ih played unmoved.2
        exact ⟨later.1.trans first.1, later.2.trans first.2⟩

/-- Nothing is in flight or pending, as far as the clients of these moves go. -/
def World.Still (moves : List Move) (world : World) : Prop :=
  (∀ conn ∈ List.range world.nextConn, (world.conns conn).up = [] ∧ (world.conns conn).down = [] ∧
    ((world.conns conn).listening = true →
      ∃ key ∈ moves.filterMap Move.key?, world.links key = some conn)) ∧
  ∀ key ∈ moves.filterMap Move.key?, (world.apps key).Idle

instance (moves : List Move) (world : World) : Decidable (world.Still moves) :=
  inferInstanceAs (Decidable (_ ∧ _))

/-- A run that is played to where nothing is left to come is quiescent. -/
theorem World.quiescent_of_still {moves : List Move}
    (played : World.play digits config .initial moves = some world) (still : world.Still moves) :
    world.Quiescent := by
  have proper := (ReachableBy.initial.play played).meant.proper
  have empty : ∀ conn, (world.conns conn).up = [] ∧ (world.conns conn).down = [] := by
    intro conn
    by_cases used : conn < world.nextConn
    · obtain ⟨sent, received, _⟩ := still.1 conn (List.mem_range.mpr used)
      exact ⟨sent, received⟩
    · rw [(proper.unused conn (not_lt.mp used)).1]
      exact ⟨rfl, rfl⟩
  refine ⟨fun conn => (empty conn).1, fun _ conn _ => (empty conn).2, fun conn listening => ?_,
    fun key => ?_⟩
  · by_cases used : conn < world.nextConn
    · obtain ⟨_, _, noticed⟩ := still.1 conn (List.mem_range.mpr used)
      obtain ⟨key, _, linked⟩ := noticed listening
      exact ⟨key, linked⟩
    · rw [(proper.unused conn (not_lt.mp used)).1] at listening
      cases listening
  · by_cases moved : some key ∈ moves.map Move.key?
    · obtain ⟨move, listed, same⟩ := List.mem_map.mp moved
      exact still.2 key (List.mem_filterMap.mpr ⟨move, listed, same⟩)
    · rw [(World.play_of_notMem played moved).2]
      exact fun _ => rfl

end Ending

section Evening

/-- Ana joins and takes control; Bea joins, and Ana plays a track. -/
def evening : List Move :=
  [.connect 0 "Ana" "party", .serve 0 anaId, .deliver 0 0,
    .claimControl 0, .serve 0 anaId, .deliver 0 0, .serve 0 anaId, .serve 0 anaId,
    .connect 1 "Bea" "party", .serve 1 beaId, .deliver 1 0, .deliver 0 0,
    .edit 0 100 (Client.loadTrackDelta .A "intro"), .serve 0 anaId, .deliver 1 0,
    .edit 0 200 { deck := .A, playing := some true, positionSeconds := some (25 / 2) },
    .edit 0 300 { deck := .B, gain := some (.ofDouble (1 / 2)) },
    .serve 0 anaId, .serve 0 anaId, .deliver 1 0, .deliver 1 0]

def eveningWorld : Option World := World.play Client.fifteenPlaces party .initial evening

/-- At the end both are in the room, with Ana's track playing and her gain on deck B. -/
theorem evening_played : ∃ world, eveningWorld = some world ∧ world.Still evening ∧
    world.room.controllerId = some anaId ∧ world.room.clients = [(anaId, 0), (beaId, 1)] ∧
    world.room.serverSeq = 5 ∧ world.room.decks =
      [(.A, { Server.defaultDeckState with
          trackId := some (js "intro"), playing := true, positionSeconds := 25 / 2 }),
        (.B, { Server.defaultDeckState with gain := 1 / 2 })] := by
  decide +kernel

end Evening

end DjApp.System
