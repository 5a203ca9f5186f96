import Mathlib.Order.Nat
import Mathlib.Data.List.Basic
import Mathlib.Tactic.Common

/-! The listener storage of the state stores, and its walk over listeners that may change the
registrations while they are called. -/

set_option autoImplicit false

namespace DjApp.Client

/-- The tokens that are registered, in the order of the map. A token is never reused. -/
structure TokenListenerList where
  listeners : List ℕ := []
  nextToken : ℕ := 0
  ascending : listeners.Pairwise (· < ·) := by simp
  issued : ∀ token ∈ listeners, token < nextToken := by simp

namespace TokenListenerList

instance : Inhabited TokenListenerList := ⟨{}⟩

def addListener (list : TokenListenerList) : TokenListenerList where
  listeners := list.listeners ++ [list.nextToken]
  nextToken := list.nextToken + 1
  ascending := by
    refine List.pairwise_append.mpr ⟨list.ascending, List.pairwise_singleton _ _, ?_⟩
    intro token member added here
    rw [List.mem_singleton.mp here]
    exact list.issued token member
  issued := by
    intro token member
    rcases List.mem_append.mp member with earlier | added
    · exact Nat.lt_succ_of_lt (list.issued token earlier)
    · rw [List.mem_singleton.mp added]
      exact Nat.lt_succ_self _

def removeListener (list : TokenListenerList) (token : ℕ) : TokenListenerList where
  listeners := list.listeners.filter (· ≠ token)
  nextToken := list.nextToken
  ascending := list.ascending.filter _
  issued other member := list.issued other (List.mem_of_mem_filter member)

def upperBound (list : TokenListenerList) (token : ℕ) : Option ℕ :=
  list.listeners.find? (token < ·)

@[simp] theorem mem_addListener {list : TokenListenerList} {token : ℕ} :
    token ∈ list.addListener.listeners ↔ token ∈ list.listeners ∨ token = list.nextToken := by
  simp [addListener]

@[simp] theorem mem_removeListener {list : TokenListenerList} {token removed : ℕ} :
    token ∈ (list.removeListener removed).listeners ↔ token ∈ list.listeners ∧ token ≠ removed := by
  simp [removeListener]

theorem lt_of_upperBound {list : TokenListenerList} {token next : ℕ}
    (found : list.upperBound token = some next) : token < next := by
  simpa using List.find?_some found

theorem le_of_upperBound_eq_none {list : TokenListenerList} {token other : ℕ}
    (last : list.upperBound token = none) (member : other ∈ list.listeners) : other ≤ token := by
  have beyond := List.find?_eq_none.mp last other member
  exact not_lt.mp (by simpa using beyond)

theorem upperBound_mem {list : TokenListenerList} {token next : ℕ}
    (found : list.upperBound token = some next) : next ∈ list.listeners :=
  List.mem_of_find?_eq_some found

/-- No token is registered between one and its upper bound. -/
theorem le_of_upperBound {list : TokenListenerList} {token next other : ℕ}
    (found : list.upperBound token = some next) (member : other ∈ list.listeners)
    (before : other < next) : other ≤ token := by
  obtain ⟨_, earlier, later, shape, none⟩ := List.find?_eq_some_iff_append.mp found
  have sorted := list.ascending
  rw [shape] at member sorted
  rcases List.mem_append.mp member with left | right
  · exact not_lt.mp (by simpa using none other left)
  · rcases List.mem_cons.mp right with rfl | right
    · exact absurd before (lt_irrefl _)
    · have after := (List.pairwise_cons.mp (List.pairwise_append.mp sorted).2.1).1 other right
      exact absurd before (not_lt.mpr after.le)

theorem head_le {list : TokenListenerList} {first other : ℕ}
    (head : list.listeners.head? = some first) (member : other ∈ list.listeners) :
    first ≤ other := by
  obtain ⟨rest, shape⟩ := List.head?_eq_some_iff.mp head
  have sorted := list.ascending
  rw [shape] at member sorted
  rcases List.mem_cons.mp member with rfl | later
  · exact le_rfl
  · exact ((List.pairwise_cons.mp sorted).1 other later).le

section Evolves

variable {before middle after : TokenListenerList}

/-- What no operation undoes: a token that has been issued is not registered again once it is
removed. -/
structure Evolves (before after : TokenListenerList) : Prop where
  issued : before.nextToken ≤ after.nextToken
  removed : ∀ token, token < before.nextToken → token ∈ after.listeners →
    token ∈ before.listeners

theorem Evolves.refl (list : TokenListenerList) : list.Evolves list :=
  ⟨le_rfl, fun _ _ member => member⟩

theorem Evolves.trans (first : before.Evolves middle) (second : middle.Evolves after) :
    before.Evolves after :=
  ⟨first.issued.trans second.issued, fun token known member =>
    first.removed token known (second.removed token (known.trans_le first.issued) member)⟩

/-- A token registered before and after was registered all the time. -/
theorem Evolves.registered (first : before.Evolves middle) (second : middle.Evolves after)
    {token : ℕ} (earlier : token ∈ before.listeners) (later : token ∈ after.listeners) :
    token ∈ middle.listeners :=
  second.removed token ((before.issued token earlier).trans_le first.issued) later

theorem evolves_addListener (list : TokenListenerList) : list.Evolves list.addListener := by
  refine ⟨Nat.le_succ _, fun token known member => ?_⟩
  rcases mem_addListener.mp member with earlier | added
  · exact earlier
  · exact absurd added known.ne

theorem evolves_removeListener (list : TokenListenerList) (token : ℕ) :
    list.Evolves (list.removeListener token) :=
  ⟨le_rfl, fun _ _ member => (mem_removeListener.mp member).1⟩

end Evolves

section Notify

variable {World : Type} (list : World → TokenListenerList)
  (invoke : ℕ → World → Option World) (shouldStop : World → Bool)

/-- The loop of `notify`. Its token is looked up afresh at each turn; a walk that is not done
within the fuel has no result. -/
def walk : ℕ → ℕ → World → Option World
  | 0, _, _ => none
  | fuel + 1, token, world => do
      let world ← if token ∈ (list world).listeners then invoke token world else some world
      if shouldStop world then some world
      else
        match (list world).upperBound token with
        | none => some world
        | some next => walk fuel next world

def notify (fuel : ℕ) (world : World) : Option World :=
  match (list world).listeners.head? with
  | none => some world
  | some token => walk list invoke shouldStop fuel token world

variable {list invoke shouldStop}

/-- The rule of the walk: what is done for a token in its turn, and lasts, is done in the end
for every token that is still registered, unless the walk was stopped. -/
theorem walk_rule (invariant stopped : World → Prop) (done : ℕ → World → Prop)
    (visited : ∀ token before after, token ∈ (list before).listeners → invariant before →
      (∀ other ∈ (list before).listeners, other < token → done other before) →
      invoke token before = some after →
      (shouldStop after = true → stopped after) ∧
        (shouldStop after = false → invariant after ∧
          ∀ other ∈ (list after).listeners, other ≤ token → done other after))
    {fuel token : ℕ} {before after : World} (member : token ∈ (list before).listeners)
    (start : invariant before)
    (passed : ∀ other ∈ (list before).listeners, other < token → done other before)
    (returned : walk list invoke shouldStop fuel token before = some after) :
    stopped after ∨ invariant after ∧ ∀ other ∈ (list after).listeners, done other after := by
  induction fuel generalizing token before with
  | zero => cases returned
  | succ fuel ih =>
      simp only [walk, if_pos member] at returned
      obtain ⟨world, invoked, rest⟩ := Option.bind_eq_some_iff.mp returned
      obtain ⟨stops, goes⟩ := visited token before world member start passed invoked
      cases stop : shouldStop world with
      | true =>
          simp only [stop, ↓reduceIte, Option.some.injEq] at rest
          rw [← rest]
          exact .inl (stops stop)
      | false =>
          obtain ⟨kept, covered⟩ := goes stop
          simp only [stop, Bool.false_eq_true, ↓reduceIte] at rest
          cases next : (list world).upperBound token with
          | none =>
              simp only [next, Option.some.injEq] at rest
              rw [← rest]
              exact .inr ⟨kept, fun other registered =>
                covered other registered (le_of_upperBound_eq_none next registered)⟩
          | some turn =>
              simp only [next] at rest
              refine ih (upperBound_mem next) kept ?_ rest
              intro other registered earlier
              exact covered other registered (le_of_upperBound next registered earlier)

theorem notify_rule (invariant stopped : World → Prop) (done : ℕ → World → Prop)
    (visited : ∀ token before after, token ∈ (list before).listeners → invariant before →
      (∀ other ∈ (list before).listeners, other < token → done other before) →
      invoke token before = some after →
      (shouldStop after = true → stopped after) ∧
        (shouldStop after = false → invariant after ∧
          ∀ other ∈ (list after).listeners, other ≤ token → done other after))
    {fuel : ℕ} {before after : World} (start : invariant before)
    (returned : notify list invoke shouldStop fuel before = some after) :
    stopped after ∨ invariant after ∧ ∀ other ∈ (list after).listeners, done other after := by
  unfold notify at returned
  cases first : (list before).listeners.head? with
  | none =>
      simp only [first, Option.some.injEq] at returned
      rw [← returned]
      refine .inr ⟨start, fun other registered => ?_⟩
      rw [List.head?_eq_none_iff.mp first] at registered
      exact absurd registered List.not_mem_nil
  | some token =>
      simp only [first] at returned
      refine walk_rule invariant stopped done visited (List.mem_of_mem_head? first) start ?_ returned
      intro other registered earlier
      exact absurd earlier (not_lt.mpr (head_le first registered))

end Notify

end TokenListenerList

end DjApp.Client
