import Mathlib.Algebra.Order.Field.Basic
import Mathlib.Algebra.Order.ToIntervalMod
import Mathlib.Tactic.Linarith

/-! Positions that go round a range: one that has reached the end of the range goes on from its
start. Where a position ends up depends on the distance travelled, not on the stops made. -/

set_option autoImplicit false

namespace DjApp.Library.Wrapping

section Group

variable {Position : Type} [AddCommGroup Position] [LinearOrder Position]
  [IsOrderedAddMonoid Position] [Archimedean Position]

/-- A range that is not in order wraps nothing, and neither does a position before it. -/
noncomputable def wrap (start stop position : Position) : Position :=
  if range : start < stop then
    if start ≤ position then toIcoMod (sub_pos.mpr range) start position else position
  else position

variable {start stop position : Position}

theorem wrap_of_degenerate (degenerate : stop ≤ start) : wrap start stop position = position :=
  dif_neg (not_lt.mpr degenerate)

theorem wrap_of_before (before : position < start) : wrap start stop position = position := by
  unfold wrap
  split
  · exact if_neg (not_le.mpr before)
  · rfl

theorem wrap_of_reached (range : start < stop) (reached : start ≤ position) :
    wrap start stop position = toIcoMod (sub_pos.mpr range) start position := by
  rw [wrap, dif_pos range, if_pos reached]

theorem wrap_of_lt (inside : position < stop) : wrap start stop position = position := by
  rcases lt_or_ge position start with before | reached
  · exact wrap_of_before before
  · rw [wrap_of_reached (reached.trans_lt inside) reached, toIcoMod_eq_self, add_sub_cancel]
    exact ⟨reached, inside⟩

theorem wrap_mem (range : start < stop) (reached : start ≤ position) :
    wrap start stop position ∈ Set.Ico start stop := by
  have member := toIcoMod_mem_Ico (sub_pos.mpr range) start position
  rwa [add_sub_cancel, ← wrap_of_reached range reached] at member

theorem wrap_lt (range : start < stop) : wrap start stop position < stop := by
  rcases lt_or_ge position start with before | reached
  · rw [wrap_of_before before]
    exact before.trans range
  · exact (wrap_mem range reached).2

/-- The wrap takes whole rounds off a position. -/
theorem exists_eq_wrap_add (start stop position : Position) :
    ∃ rounds : ℤ, position = wrap start stop position + rounds • (stop - start) := by
  by_cases wrapped : start < stop ∧ start ≤ position
  · obtain ⟨range, reached⟩ := wrapped
    refine ⟨toIcoDiv (sub_pos.mpr range) start position, ?_⟩
    rw [wrap_of_reached range reached, toIcoMod_add_toIcoDiv_zsmul]
  · have same : wrap start stop position = position := by
      rcases not_and_or.mp wrapped with degenerate | before
      · exact wrap_of_degenerate (not_lt.mp degenerate)
      · exact wrap_of_before (not_le.mp before)
    exact ⟨0, by rw [same, zero_zsmul, add_zero]⟩

theorem wrap_wrap : wrap start stop (wrap start stop position) = wrap start stop position := by
  rcases lt_or_ge start stop with range | degenerate
  · exact wrap_of_lt (wrap_lt range)
  · rw [wrap_of_degenerate degenerate, wrap_of_degenerate degenerate]

/-- A wrap before a step forward does not show after it. -/
theorem wrap_wrap_add {step : Position} (forward : 0 ≤ step) :
    wrap start stop (wrap start stop position + step) = wrap start stop (position + step) := by
  rcases lt_or_ge start stop with range | degenerate
  · rcases lt_or_ge position start with before | reached
    · rw [wrap_of_before before]
    · have member := (wrap_mem range reached).1
      obtain ⟨rounds, split⟩ := exists_eq_wrap_add start stop position
      rw [wrap_of_reached range (member.trans (le_add_of_nonneg_right forward)),
        wrap_of_reached range (reached.trans (le_add_of_nonneg_right forward))]
      conv_rhs => rw [split, add_right_comm]
      exact (toIcoMod_add_zsmul ..).symm
  · simp only [wrap_of_degenerate degenerate]

/-- However often it is wrapped on the way, a position ends up where the whole distance leads. -/
theorem foldl_wrap {steps : List Position} (forward : ∀ step ∈ steps, 0 ≤ step) :
    steps.foldl (fun head step => wrap start stop (head + step)) (wrap start stop position) =
      wrap start stop (position + steps.sum) := by
  induction steps generalizing position with
  | nil => simp only [List.foldl_nil, List.sum_nil, add_zero]
  | cons step steps ih =>
      obtain ⟨first, later⟩ := List.forall_mem_cons.mp forward
      rw [List.foldl_cons, wrap_wrap_add first, ih later, List.sum_cons, add_assoc]

end Group

section Field

variable {Position : Type} [Field Position] [LinearOrder Position] [IsStrictOrderedRing Position]
  [Archimedean Position] {start stop position scale : Position}

/-- Wrapping does not depend on the unit of measure. -/
theorem wrap_mul (positive : 0 < scale) :
    wrap (start * scale) (stop * scale) (position * scale) = wrap start stop position * scale := by
  rcases lt_or_ge start stop with range | degenerate
  · rcases lt_or_ge position start with before | reached
    · rw [wrap_of_before before, wrap_of_before (mul_lt_mul_of_pos_right before positive)]
    · obtain ⟨rounds, split⟩ := exists_eq_wrap_add start stop position
      have member := wrap_mem range reached
      rw [wrap_of_reached (mul_lt_mul_of_pos_right range positive)
        (mul_le_mul_of_nonneg_right reached positive.le), toIcoMod_eq_iff, add_sub_cancel]
      refine ⟨⟨mul_le_mul_of_nonneg_right member.1 positive.le,
        mul_lt_mul_of_pos_right member.2 positive⟩, rounds, ?_⟩
      conv_lhs => rw [split]
      simp only [zsmul_eq_mul]
      ring
  · rw [wrap_of_degenerate degenerate,
      wrap_of_degenerate (mul_le_mul_of_nonneg_right degenerate positive.le)]

end Field

end DjApp.Library.Wrapping
