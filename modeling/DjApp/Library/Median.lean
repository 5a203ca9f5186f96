import Mathlib.Data.List.Sort

/-! The middle of a sorted list lies between two bounds as soon as most of the list does. Few
errors in a list of marks leave most of the steps between the marks as they were. -/

set_option autoImplicit false

namespace DjApp.Library.Median

section Bounds

variable {Value : Type} [LinearOrder Value]

/-- The entries between two bounds. -/
def within (low high : Value) (value : Value) : Bool := decide (low ≤ value ∧ value ≤ high)

section Sorted

variable {values : List Value} (sorted : values.Pairwise (· ≤ ·)) {low high : Value} {index : ℕ}
  (present : index < values.length)

include sorted

/-- No entry up to one below the bounds is within them. -/
theorem countP_le_of_getElem_lt (below : values[index] < low) :
    values.countP (within low high) ≤ values.length - (index + 1) := by
  have none : (values.take (index + 1)).countP (within low high) = 0 := by
    apply List.countP_eq_zero.mpr
    intro value member
    obtain ⟨position, early, rfl⟩ := List.mem_iff_getElem.mp member
    rw [List.length_take] at early
    rw [List.getElem_take]
    have ordered : values[position] ≤ values[index] := by
      rcases Nat.lt_or_eq_of_le (Nat.le_of_lt_succ (lt_of_lt_of_le early (min_le_left _ _))) with
        before | same
      · exact List.pairwise_iff_getElem.mp sorted position index _ present before
      · simp [same]
    have less := ordered.trans_lt below
    simp [within, less]
  calc values.countP (within low high)
      = (values.take (index + 1)).countP (within low high) +
          (values.drop (index + 1)).countP (within low high) := by
        rw [← List.countP_append, List.take_append_drop]
    _ = (values.drop (index + 1)).countP (within low high) := by rw [none, Nat.zero_add]
    _ ≤ (values.drop (index + 1)).length := List.countP_le_length
    _ = values.length - (index + 1) := List.length_drop

/-- No entry from one above the bounds on is within them. -/
theorem countP_le_of_lt_getElem (above : high < values[index]) :
    values.countP (within low high) ≤ index := by
  have none : (values.drop index).countP (within low high) = 0 := by
    apply List.countP_eq_zero.mpr
    intro value member
    obtain ⟨position, late, rfl⟩ := List.mem_iff_getElem.mp member
    rw [List.length_drop] at late
    rw [List.getElem_drop]
    have ordered : values[index] ≤ values[index + position] := by
      cases position with
      | zero => simp
      | succ position =>
          exact List.pairwise_iff_getElem.mp sorted index _ present (by omega) (by omega)
    have less := above.trans_le ordered
    simp [within, less]
  calc values.countP (within low high)
      = (values.take index).countP (within low high) +
          (values.drop index).countP (within low high) := by
        rw [← List.countP_append, List.take_append_drop]
    _ = (values.take index).countP (within low high) := by rw [none, Nat.add_zero]
    _ ≤ (values.take index).length := List.countP_le_length
    _ ≤ index := List.length_take_le _ _

/-- An entry in the middle of a list that is mostly within the bounds is within them too. -/
theorem within_of_middle (most : values.length < 2 * values.countP (within low high))
    (early : 2 * index ≤ values.length) (late : values.length ≤ 2 * (index + 1)) :
    low ≤ values[index] ∧ values[index] ≤ high := by
  constructor
  · by_contra below
    have few := @countP_le_of_getElem_lt _ _ _ sorted low high index present (not_le.mp below)
    omega
  · by_contra above
    have few := @countP_le_of_lt_getElem _ _ _ sorted low high index present (not_le.mp above)
    omega

end Sorted

end Bounds

section Errors

variable {Mark : Type} (good : Mark → Mark → Bool)

/-- The number of good steps between neighbours. -/
def goodSteps : List Mark → ℕ
  | first :: second :: rest => (if good first second then 1 else 0) + goodSteps (second :: rest)
  | [] | [_] => 0

theorem goodSteps_of_isChain {marks : List Mark}
    (chain : marks.IsChain fun first second => good first second = true) :
    goodSteps good marks = marks.length - 1 := by
  induction marks with
  | nil => rfl
  | cons first rest ih =>
      cases rest with
      | nil => rfl
      | cons second rest =>
          obtain ⟨step, chain⟩ := List.isChain_cons_cons.mp chain
          rw [goodSteps, if_pos step, ih chain]
          simp only [List.length_cons]
          omega

/-- A mark too many spoils one step and adds two. -/
theorem goodSteps_insert (before after : List Mark) (mark : Mark) :
    goodSteps good (before ++ after) ≤ goodSteps good (before ++ mark :: after) + 1 ∧
      goodSteps good (before ++ mark :: after) ≤ goodSteps good (before ++ after) + 2 := by
  induction before with
  | nil =>
      cases after with
      | nil => exact ⟨Nat.le_succ 0, Nat.zero_le 2⟩
      | cons second rest =>
          simp only [List.nil_append, goodSteps]
          split <;> omega
  | cons first before ih =>
      cases before with
      | nil =>
          cases after with
          | nil =>
              simp only [List.cons_append, List.nil_append, goodSteps]
              split <;> omega
          | cons second rest =>
              simp only [List.cons_append, List.nil_append, goodSteps]
              split <;> split <;> split <;> omega
      | cons second before =>
          simp only [List.cons_append, goodSteps] at ih ⊢
          omega

/-- The marks that are heard, with so many of them spurious or missed. -/
inductive Misheard : ℕ → List Mark → List Mark → Prop where
  | faithful (marks : List Mark) : Misheard 0 marks marks
  | spurious {errors : ℕ} {marks before after : List Mark} (mark : Mark)
      (heard : Misheard errors marks (before ++ after)) :
      Misheard (errors + 1) marks (before ++ mark :: after)
  | missed {errors : ℕ} {marks before after : List Mark} (mark : Mark)
      (heard : Misheard errors marks (before ++ mark :: after)) :
      Misheard (errors + 1) marks (before ++ after)

variable {good} {errors : ℕ} {marks heard : List Mark}

theorem Misheard.length_le (misheard : Misheard errors marks heard) :
    marks.length ≤ heard.length + errors := by
  induction misheard with
  | faithful => exact le_rfl
  | spurious mark heard ih =>
      simp only [List.length_append, List.length_cons] at ih ⊢
      omega
  | missed mark heard ih =>
      simp only [List.length_append, List.length_cons] at ih ⊢
      omega

/-- An error costs three: two good steps and one of their number. -/
theorem Misheard.goodSteps_le (misheard : Misheard errors marks heard) :
    2 * goodSteps good marks + heard.length ≤
      2 * goodSteps good heard + marks.length + 3 * errors := by
  induction misheard with
  | faithful => omega
  | @spurious errors marks before after mark heard ih =>
      have change := (goodSteps_insert good before after mark).1
      simp only [List.length_append, List.length_cons] at ih ⊢
      omega
  | @missed errors marks before after mark heard ih =>
      have change := (goodSteps_insert good before after mark).2
      simp only [List.length_append, List.length_cons] at ih ⊢
      omega

/-- With more than three good steps for each error most of the steps heard are good. -/
theorem Misheard.most (misheard : Misheard errors marks heard)
    (chain : marks.IsChain fun first second => good first second = true)
    (few : 3 * errors + 1 < marks.length) :
    heard.length - 1 < 2 * goodSteps good heard ∧ 2 ≤ heard.length := by
  have steps := @Misheard.goodSteps_le _ good _ _ _ misheard
  have size := misheard.length_le
  rw [goodSteps_of_isChain good chain] at steps
  omega

end Errors

end DjApp.Library.Median
