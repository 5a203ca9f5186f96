import DjApp.Client.TokenListenerList
import Mathlib.Logic.Function.Iterate

/-! One walk over listeners that add and remove registrations, their own among them, while they
are called: it comes to an end, and it calls every listener that is registered in its turn once. -/

set_option autoImplicit false

namespace DjApp.Client

inductive RegistrationOperation where
  | addListener
  | removeListener (token : ℕ)
  deriving DecidableEq

namespace TokenListenerList

def perform (list : TokenListenerList) : RegistrationOperation → TokenListenerList
  | .addListener => list.addListener
  | .removeListener token => list.removeListener token

theorem evolves_perform (list : TokenListenerList) (operation : RegistrationOperation) :
    list.Evolves (list.perform operation) := by
  cases operation with
  | addListener => exact evolves_addListener list
  | removeListener token => exact evolves_removeListener list token

theorem nextToken_perform_le (list : TokenListenerList) (operation : RegistrationOperation) :
    (list.perform operation).nextToken ≤ list.nextToken + 1 := by
  cases operation with
  | addListener => exact le_rfl
  | removeListener token => exact Nat.le_succ _

theorem evolves_foldl_perform (list : TokenListenerList)
    (operations : List RegistrationOperation) :
    list.Evolves (operations.foldl perform list) ∧
      (operations.foldl perform list).nextToken ≤ list.nextToken + operations.length := by
  induction operations generalizing list with
  | nil => exact ⟨.refl list, le_rfl⟩
  | cons operation operations ih =>
      obtain ⟨evolves, room⟩ := ih (list.perform operation)
      have step := nextToken_perform_le list operation
      refine ⟨(evolves_perform list operation).trans evolves, room.trans ?_⟩
      rw [List.length_cons]
      omega

end TokenListenerList

open TokenListenerList

/-- A call of a listener: the registrations it found, and what it did to them. -/
structure Turn where
  token : ℕ
  before : TokenListenerList
  operations : List RegistrationOperation

namespace Turn

def after (turn : Turn) : TokenListenerList := turn.operations.foldl perform turn.before

/-- A token that had been issued by the end of the turn, and was not registered then. -/
def Removed (turn : Turn) (token : ℕ) : Prop :=
  token < turn.after.nextToken ∧ token ∉ turn.after.listeners

end Turn

/-- What a listener does in its callback, which may depend on all that happened in the walk. -/
abbrev Behaviour := List Turn → ℕ → List RegistrationOperation

/-- A list with the calls that its walk has made. -/
structure Walk where
  list : TokenListenerList
  turns : List Turn := []

namespace Walk

def call (behaviour : Behaviour) (token : ℕ) (walk : Walk) : Walk :=
  let turn : Turn := ⟨token, walk.list, behaviour walk.turns token⟩
  ⟨turn.after, walk.turns ++ [turn]⟩

/-- The token whose turn it is, unless the walk is over. -/
def next (walk : Walk) : Option ℕ :=
  match walk.turns.getLast? with
  | none => walk.list.listeners.head?
  | some turn => walk.list.upperBound turn.token

def advance (behaviour : Behaviour) (walk : Walk) : Walk :=
  match walk.next with
  | none => walk
  | some token => walk.call behaviour token

def operations (walk : Walk) : List RegistrationOperation :=
  walk.turns.flatMap (·.operations)

def calls (walk : Walk) (token : ℕ) : ℕ := (walk.turns.map (·.token)).count token

/-- The registrations when a walk comes to the place of a token: as the last listener before it
left them. -/
def atTurn (start : TokenListenerList) (walk : Walk) (token : ℕ) : TokenListenerList :=
  ((walk.turns.filter (·.token < token)).getLast?.map (·.after)).getD start

/-- The list's `notify` when nothing stops it from outside. -/
def run (behaviour : Behaviour) (fuel : ℕ) (start : TokenListenerList) : Option Walk :=
  notify Walk.list (fun token walk => some (walk.call behaviour token)) (fun _ => false) fuel
    ⟨start, []⟩

/-- The operations of the callbacks do not go on for ever. -/
def Finite (behaviour : Behaviour) (start : TokenListenerList) : Prop :=
  ∃ most, ∀ count, ((advance behaviour)^[count] ⟨start, []⟩).operations.length ≤ most

section Sound

variable {behaviour : Behaviour} {start : TokenListenerList} {walk : Walk} {token : ℕ}

/-- What holds of a walk between two calls. The tokens up to its last call are settled; of the
tokens above it, those that have been removed stay removed. -/
structure Sound (start : TokenListenerList) (walk : Walk) : Prop where
  ascending : (walk.turns.map (·.token)).Pairwise (· < ·)
  highest : ∀ last, walk.turns.getLast? = some last →
    ∀ turn ∈ walk.turns, turn.token ≤ last.token
  live : ∀ turn ∈ walk.turns, turn.token ∈ turn.before.listeners
  left : (walk.turns.getLast?.map (·.after)).getD start = walk.list
  settled : ∀ turn ∈ walk.turns, ∀ token ≤ turn.token,
    walk.calls token = if token ∈ (walk.atTurn start token).listeners then 1 else 0
  kept : ∀ turn ∈ walk.turns, ∀ token ≤ turn.token,
    token ∈ walk.list.listeners → walk.calls token = 1
  removed : ∀ turn ∈ walk.turns, ∀ token, turn.token < token → turn.Removed token →
    token < walk.list.nextToken ∧ token ∉ walk.list.listeners ∧ walk.calls token = 0
  room : walk.list.nextToken ≤ start.nextToken + walk.operations.length

theorem Sound.initial (list : TokenListenerList) : Sound list ⟨list, []⟩ where
  ascending := List.Pairwise.nil
  highest _ none := by cases none
  live _ member := absurd member List.not_mem_nil
  left := rfl
  settled _ member := absurd member List.not_mem_nil
  kept _ member := absurd member List.not_mem_nil
  removed _ member := absurd member List.not_mem_nil
  room := le_rfl

@[simp] theorem turns_call (behaviour : Behaviour) (token : ℕ) (walk : Walk) :
    (walk.call behaviour token).turns =
      walk.turns ++ [⟨token, walk.list, behaviour walk.turns token⟩] := rfl

theorem calls_call (behaviour : Behaviour) (token other : ℕ) (walk : Walk) :
    (walk.call behaviour token).calls other = walk.calls other + if token = other then 1 else 0 := by
  simp [calls, List.count_append, List.count_singleton]

theorem calls_eq_zero (below : ∀ turn ∈ walk.turns, turn.token < token) : walk.calls token = 0 := by
  apply List.count_eq_zero_of_not_mem
  intro member
  obtain ⟨turn, called, same⟩ := List.mem_map.mp member
  exact absurd same (below turn called).ne

theorem atTurn_call {other : ℕ} (upTo : other ≤ token) :
    (walk.call behaviour token).atTurn start other = walk.atTurn start other := by
  simp [atTurn, List.filter_append, upTo]

/-- The place of a token that the walk has not reached is where the walk is. -/
theorem Sound.atTurn_eq (sound : Sound start walk)
    (below : ∀ turn ∈ walk.turns, turn.token < token) : walk.atTurn start token = walk.list := by
  have all : walk.turns.filter (·.token < token) = walk.turns :=
    List.filter_eq_self.mpr fun turn member => decide_eq_true (below turn member)
  rw [atTurn, all, sound.left]

theorem passed_or_below (walk : Walk) (token : ℕ) :
    (∃ turn ∈ walk.turns, token ≤ turn.token) ∨ ∀ turn ∈ walk.turns, turn.token < token := by
  by_cases passed : ∃ turn ∈ walk.turns, token ≤ turn.token
  · exact .inl passed
  · exact .inr fun turn member => not_le.mp fun lower => passed ⟨turn, member, lower⟩

theorem Sound.next_eq_some (sound : Sound start walk) (turn : walk.next = some token) :
    token ∈ walk.list.listeners ∧ (∀ earlier ∈ walk.turns, earlier.token < token) ∧
      ∀ other ∈ walk.list.listeners, other < token → ∃ earlier ∈ walk.turns, other ≤ earlier.token := by
  unfold next at turn
  cases latest : walk.turns.getLast? with
  | none =>
      simp only [latest] at turn
      have empty := List.getLast?_eq_none_iff.mp latest
      refine ⟨List.mem_of_head? turn, by simp [empty], fun other registered lower => ?_⟩
      exact absurd lower (not_lt.mpr (head_le turn registered))
  | some last =>
      simp only [latest] at turn
      refine ⟨upperBound_mem turn, fun earlier member => ?_, fun other registered lower => ?_⟩
      · exact (sound.highest last latest earlier member).trans_lt (lt_of_upperBound turn)
      · exact ⟨last, List.mem_of_getLast? latest, le_of_upperBound turn registered lower⟩

theorem next_eq_none (finished : walk.next = none) :
    ∀ other ∈ walk.list.listeners, ∃ earlier ∈ walk.turns, other ≤ earlier.token := by
  intro other registered
  unfold next at finished
  cases latest : walk.turns.getLast? with
  | none =>
      simp only [latest] at finished
      rw [List.head?_eq_none_iff.mp finished] at registered
      exact absurd registered List.not_mem_nil
  | some last =>
      simp only [latest] at finished
      exact ⟨last, List.mem_of_getLast? latest, le_of_upperBound_eq_none finished registered⟩

/-- Between the last call and the next one the list has no token but the next one. -/
theorem Sound.own_iff (sound : Sound start walk) (turn : walk.next = some token) {other : ℕ}
    (upTo : other ≤ token) (below : ∀ earlier ∈ walk.turns, earlier.token < other) :
    token = other ↔ other ∈ walk.list.listeners := by
  obtain ⟨registered, _, between⟩ := sound.next_eq_some turn
  constructor
  · intro same
    rwa [← same]
  · intro present
    refine le_antisymm (not_lt.mp fun lower => ?_) upTo
    obtain ⟨earlier, included, passed⟩ := between other present lower
    exact absurd (below earlier included) (not_lt.mpr passed)

theorem Sound.calls_call_of_passed (sound : Sound start walk) (turn : walk.next = some token)
    {other : ℕ} {earlier : Turn} (included : earlier ∈ walk.turns)
    (lower : other ≤ earlier.token) :
    (walk.call behaviour token).calls other = walk.calls other := by
  have apart : token ≠ other :=
    (lower.trans_lt ((sound.next_eq_some turn).2.1 earlier included)).ne'
  rw [calls_call, if_neg apart, Nat.add_zero]

theorem Sound.settled_call (sound : Sound start walk) (turn : walk.next = some token) {other : ℕ}
    (upTo : other ≤ token) :
    (walk.call behaviour token).calls other =
      if other ∈ ((walk.call behaviour token).atTurn start other).listeners then 1 else 0 := by
  rw [atTurn_call upTo]
  rcases passed_or_below walk other with ⟨earlier, included, lower⟩ | below
  · rw [sound.calls_call_of_passed turn included lower, sound.settled earlier included other lower]
  · rw [sound.atTurn_eq below, calls_call, calls_eq_zero below, Nat.zero_add]
    simp only [sound.own_iff turn upTo below]

theorem Sound.kept_call (sound : Sound start walk) (turn : walk.next = some token) {other : ℕ}
    (upTo : other ≤ token) (remains : other ∈ (walk.call behaviour token).list.listeners) :
    (walk.call behaviour token).calls other = 1 := by
  obtain ⟨evolves, _⟩ := evolves_foldl_perform walk.list (behaviour walk.turns token)
  have issued := walk.list.issued token (sound.next_eq_some turn).1
  have present : other ∈ walk.list.listeners :=
    evolves.removed other (upTo.trans_lt issued) remains
  rcases passed_or_below walk other with ⟨earlier, included, lower⟩ | below
  · rw [sound.calls_call_of_passed turn included lower]
    exact sound.kept earlier included other lower present
  · rw [calls_call, calls_eq_zero below, if_pos ((sound.own_iff turn upTo below).mpr present)]

theorem Sound.removed_call (sound : Sound start walk) (turn : walk.next = some token)
    {earlier : Turn} (included : earlier ∈ walk.turns) {other : ℕ}
    (higher : earlier.token < other) (gone : earlier.Removed other) :
    other < (walk.call behaviour token).list.nextToken ∧
      other ∉ (walk.call behaviour token).list.listeners ∧
      (walk.call behaviour token).calls other = 0 := by
  obtain ⟨evolves, _⟩ := evolves_foldl_perform walk.list (behaviour walk.turns token)
  obtain ⟨old, absent, uncalled⟩ := sound.removed earlier included other higher gone
  have apart : token ≠ other := fun same => absent (same ▸ (sound.next_eq_some turn).1)
  refine ⟨old.trans_le evolves.issued, fun again => absent ?_, ?_⟩
  · exact evolves.removed other old again
  · rw [calls_call, uncalled, if_neg apart]

theorem Sound.call (sound : Sound start walk) (turn : walk.next = some token) :
    Sound start (walk.call behaviour token) := by
  obtain ⟨registered, above, _⟩ := sound.next_eq_some turn
  have highest : ∀ other ∈ (walk.call behaviour token).turns, other.token ≤ token := by
    intro other member
    rcases List.mem_append.mp member with earlier | own
    · exact (above other earlier).le
    · rw [List.mem_singleton.mp own]
  constructor
  case ascending =>
    rw [turns_call, List.map_append, List.pairwise_append]
    refine ⟨sound.ascending, List.pairwise_singleton _ _, fun earlier member called here => ?_⟩
    obtain ⟨before, included, rfl⟩ := List.mem_map.mp member
    rw [List.mem_singleton.mp here]
    exact above before included
  case highest =>
    intro last latest other member
    rw [turns_call, List.getLast?_concat, Option.some.injEq] at latest
    rw [← latest]
    exact highest other member
  case live =>
    intro other member
    rcases List.mem_append.mp member with earlier | own
    · exact sound.live other earlier
    · rw [List.mem_singleton.mp own]
      exact registered
  case left => rw [turns_call, List.getLast?_concat]; rfl
  case settled =>
    intro last member other upToLast
    exact sound.settled_call turn (upToLast.trans (highest last member))
  case kept =>
    intro last member other upToLast remains
    exact sound.kept_call turn (upToLast.trans (highest last member)) remains
  case removed =>
    intro last member other higher gone
    rcases List.mem_append.mp member with earlier | own
    · exact sound.removed_call turn earlier higher gone
    · rw [List.mem_singleton.mp own] at higher gone
      refine ⟨gone.1, gone.2, ?_⟩
      rw [calls_call, if_neg (ne_of_lt higher), Nat.add_zero]
      exact calls_eq_zero fun earlier included => (above earlier included).trans higher
  case room =>
    obtain ⟨_, grown⟩ := evolves_foldl_perform walk.list (behaviour walk.turns token)
    have counted : (walk.call behaviour token).operations.length =
        walk.operations.length + (behaviour walk.turns token).length := by
      simp [operations]
    have before := sound.room
    rw [counted]
    exact grown.trans (by omega)

/-- A walk that is over has called every listener once that was registered in its turn. -/
theorem Sound.calls_eq (sound : Sound start walk) (finished : walk.next = none) (token : ℕ) :
    walk.calls token = if token ∈ (walk.atTurn start token).listeners then 1 else 0 := by
  rcases passed_or_below walk token with ⟨turn, member, lower⟩ | below
  · exact sound.settled turn member token lower
  · rw [sound.atTurn_eq below, calls_eq_zero below, if_neg]
    intro registered
    obtain ⟨turn, member, lower⟩ := next_eq_none finished token registered
    exact absurd (below turn member) (not_lt.mpr lower)

theorem next_call (behaviour : Behaviour) (token : ℕ) (walk : Walk) :
    (walk.call behaviour token).next = (walk.call behaviour token).list.upperBound token := by
  rw [next, turns_call, List.getLast?_concat]

theorem advance_of_next (turn : walk.next = some token) :
    walk.advance behaviour = walk.call behaviour token := by
  rw [advance, turn]

/-- One turn of the list's own loop. -/
theorem walk_succ (registered : token ∈ walk.list.listeners) (fuel : ℕ) :
    TokenListenerList.walk Walk.list (fun token walk => some (walk.call behaviour token))
        (fun _ => false) (fuel + 1) token walk =
      match (walk.call behaviour token).next with
      | none => some (walk.call behaviour token)
      | some next =>
          TokenListenerList.walk Walk.list (fun token walk => some (walk.call behaviour token))
            (fun _ => false) fuel next (walk.call behaviour token) := by
  rw [next_call]
  simp only [TokenListenerList.walk, if_pos registered]
  rfl

/-- No token gets beyond those that can have been issued. -/
theorem Sound.token_lt (sound : Sound start walk) (turn : walk.next = some token) :
    token < start.nextToken + walk.operations.length :=
  (walk.list.issued token (sound.next_eq_some turn).1).trans_le sound.room

/-- The tokens of a walk go up, so the room above them is used up in the end. -/
theorem Sound.walk_returns {most : ℕ}
    (few : ∀ count, ((advance behaviour)^[count] ⟨start, []⟩).operations.length ≤ most)
    {room count : ℕ} (reached : (advance behaviour)^[count] ⟨start, []⟩ = walk)
    (sound : Sound start walk) (turn : walk.next = some token)
    (near : start.nextToken + most ≤ token + room) :
    ∃ last, Sound start last ∧ last.next = none ∧ ∀ fuel, room ≤ fuel →
      TokenListenerList.walk Walk.list (fun token walk => some (walk.call behaviour token))
        (fun _ => false) fuel token walk = some last := by
  induction room generalizing count token walk with
  | zero =>
      have below := sound.token_lt turn
      have bounded := few count
      rw [reached] at bounded
      omega
  | succ room ih =>
      have registered := (sound.next_eq_some turn).1
      have kept : Sound start (walk.call behaviour token) := sound.call turn
      cases next : (walk.call behaviour token).next with
      | none =>
          refine ⟨_, kept, next, fun fuel enough => ?_⟩
          obtain ⟨spare, rfl⟩ := Nat.exists_eq_add_of_le' (Nat.one_le_of_lt enough)
          rw [walk_succ registered, next]
      | some other =>
          have higher : token < other := by
            rw [next_call] at next
            exact lt_of_upperBound next
          have later : (advance behaviour)^[count + 1] ⟨start, []⟩ = walk.call behaviour token := by
            rw [Function.iterate_succ_apply', reached, advance_of_next turn]
          obtain ⟨last, ended, finished, returns⟩ := ih later kept next (by omega)
          refine ⟨last, ended, finished, fun fuel enough => ?_⟩
          obtain ⟨spare, rfl⟩ := Nat.exists_eq_add_of_le' (Nat.one_le_of_lt enough)
          rw [walk_succ registered, next]
          exact returns spare (Nat.le_of_succ_le_succ enough)

/-- A walk whose callbacks change the list finitely often returns, all its turns taken. -/
theorem run_returns (few : Finite behaviour start) :
    ∃ last, Sound start last ∧ last.next = none ∧
      ∃ enough, ∀ fuel, enough ≤ fuel → run behaviour fuel start = some last := by
  obtain ⟨most, few⟩ := few
  have first : ∀ fuel, run behaviour fuel start = match (⟨start, []⟩ : Walk).next with
      | none => some ⟨start, []⟩
      | some token =>
          TokenListenerList.walk Walk.list (fun token walk => some (walk.call behaviour token))
            (fun _ => false) fuel token ⟨start, []⟩ := fun _ => rfl
  cases turn : (⟨start, []⟩ : Walk).next with
  | none =>
      refine ⟨⟨start, []⟩, .initial start, turn, 0, fun fuel _ => ?_⟩
      rw [first, turn]
  | some token =>
      obtain ⟨last, sound, finished, returns⟩ := (Sound.initial start).walk_returns few
        (Function.iterate_zero_apply _ _) turn (Nat.le_add_left _ token)
      refine ⟨last, sound, finished, start.nextToken + most, fun fuel enough => ?_⟩
      rw [first, turn]
      exact returns fuel enough

end Sound

end Walk

/-- Whatever the listeners do to the registrations meanwhile, as long as they come to an end with
it, one notification comes to an end too: it calls the listeners in ascending order, each one that
is registered in its turn once, and none that was removed before. -/
theorem notify_visits_once {behaviour : Behaviour} {start : TokenListenerList}
    (few : Walk.Finite behaviour start) :
    ∃ walk : Walk, (∃ enough, ∀ fuel, enough ≤ fuel → Walk.run behaviour fuel start = some walk) ∧
      (walk.turns.map (·.token)).Pairwise (· < ·) ∧
      (∀ turn ∈ walk.turns, turn.token ∈ turn.before.listeners) ∧
      (∀ token, walk.calls token =
        if token ∈ (walk.atTurn start token).listeners then 1 else 0) ∧
      (∀ turn ∈ walk.turns, ∀ token, turn.token < token → turn.Removed token →
        walk.calls token = 0) ∧
      ∀ token ∈ walk.list.listeners, walk.calls token = 1 := by
  obtain ⟨walk, sound, finished, returns⟩ := Walk.run_returns few
  refine ⟨walk, returns, sound.ascending, sound.live, sound.calls_eq finished, ?_, ?_⟩
  · intro turn member token higher removed
    exact (sound.removed turn member token higher removed).2.2
  · intro token registered
    obtain ⟨turn, member, lower⟩ := Walk.next_eq_none finished token registered
    exact sound.kept turn member token lower registered

/-- The first listener removes itself and the next one, and adds another. -/
def makesWay : Behaviour := fun _ token =>
  if token = 0 then [.removeListener 0, .removeListener 1, .addListener] else []

def threeListeners : TokenListenerList :=
  (default : TokenListenerList).addListener.addListener.addListener

theorem makesWay_finite : Walk.Finite makesWay threeListeners := by
  refine ⟨3, fun count => ?_⟩
  have finished : Function.IsFixedPt (Walk.advance makesWay)
      ((Walk.advance makesWay)^[3] ⟨threeListeners, []⟩) := rfl
  match count with
  | 0 | 1 | 2 => decide
  | count + 3 =>
      rw [Function.iterate_add_apply, Function.iterate_fixed finished]
      decide

theorem notify_visits_once_makesWay :
    ∃ walk : Walk,
      (∃ enough, ∀ fuel, enough ≤ fuel → Walk.run makesWay fuel threeListeners = some walk) ∧
      (walk.turns.map (·.token)).Pairwise (· < ·) ∧
      ∀ token ∈ walk.list.listeners, walk.calls token = 1 := by
  obtain ⟨walk, returns, ascending, _, _, _, remaining⟩ := notify_visits_once makesWay_finite
  exact ⟨walk, returns, ascending, remaining⟩

example : (Walk.run makesWay 3 threeListeners).map (·.turns.map (·.token)) = some [0, 2, 3] := by
  decide

end DjApp.Client
