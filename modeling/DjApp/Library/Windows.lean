import Mathlib.Algebra.Order.Field.Basic
import Mathlib.Data.List.Chain
import Mathlib.Data.List.Pairwise
import Mathlib.Tactic.Linarith
import Mathlib.Tactic.Ring

/-! Windows of ordered lists. -/

set_option autoImplicit false

namespace DjApp.Library.Windows

section Ordered

variable {Time : Type} [LinearOrder Time]

/-- An ordered list falls into what is before, in and after a window. -/
theorem exists_window {times : List Time} (ordered : times.Pairwise (· ≤ ·)) (first last : Time) :
    ∃ before inside after, times = before ++ inside ++ after ∧ (∀ time ∈ before, time < first) ∧
      (∀ time ∈ inside, first ≤ time ∧ time ≤ last) ∧ ∀ time ∈ after, last < time := by
  induction times with
  | nil => exact ⟨[], [], [], rfl, by simp, by simp, by simp⟩
  | cons head rest ih =>
      obtain ⟨least, ordered⟩ := List.pairwise_cons.mp ordered
      obtain ⟨before, inside, after, rfl, early, within, late⟩ := ih ordered
      rcases lt_or_ge head first with soon | due
      · exact ⟨head :: before, inside, after, by simp, by simpa using ⟨soon, early⟩, within, late⟩
      · obtain rfl : before = [] := by
          apply List.eq_nil_iff_forall_not_mem.mpr
          intro time member
          exact absurd (early time member) (not_lt.mpr (due.trans (least time (by simp [member]))))
        rcases le_or_gt head last with inTime | past
        · exact ⟨[], head :: inside, after, by simp, by simp, by simpa using ⟨⟨due, inTime⟩, within⟩,
            late⟩
        · refine ⟨[], [], head :: (inside ++ after), by simp, by simp, by simp, ?_⟩
          intro time member
          rcases List.mem_cons.mp member with rfl | member
          · exact past
          · exact past.trans_le (least time (by simpa using member))

end Ordered

section Spaced

variable {K : Type} [Field K] [LinearOrder K] [IsStrictOrderedRing K] {gap : K}

/-- Times that are a gap apart take a gap for each but the first. -/
theorem add_gaps_le {first : K} {rest : List K}
    (spaced : (first :: rest).IsChain fun earlier later => earlier + gap ≤ later) {last : K}
    (bounded : ∀ time ∈ first :: rest, time ≤ last) : first + rest.length * gap ≤ last := by
  induction rest generalizing first with
  | nil => simpa using bounded first (by simp)
  | cons next rest ih =>
      obtain ⟨step, spaced⟩ := List.isChain_cons_cons.mp spaced
      have later := ih spaced fun time member => bounded time (List.mem_cons_of_mem _ member)
      rw [List.length_cons]
      push_cast
      linarith

theorem pairwise_le_of_spaced (positive : 0 ≤ gap) {times : List K}
    (spaced : times.IsChain fun earlier later => earlier + gap ≤ later) :
    times.Pairwise (· ≤ ·) := by
  refine List.isChain_iff_pairwise.mp (spaced.imp fun earlier later step => ?_)
  linarith

/-- How many of them a window holds. -/
theorem countP_le_of_spaced (positive : 0 < gap) {times : List K}
    (spaced : times.IsChain fun earlier later => earlier + gap ≤ later) {start length : K}
    (nonneg : 0 ≤ length) :
    (times.countP (fun time => start ≤ time ∧ time ≤ start + length) : K) ≤ 1 + length / gap := by
  have ordered := pairwise_le_of_spaced positive.le spaced
  obtain ⟨before, inside, after, rfl, early, inTime, late⟩ :=
    exists_window ordered start (start + length)
  have counted : (before ++ inside ++ after).countP
      (fun time => start ≤ time ∧ time ≤ start + length) = inside.length := by
    have none : before.countP (fun time => start ≤ time ∧ time ≤ start + length) = 0 :=
      List.countP_eq_zero.mpr fun time member contra =>
        absurd (of_decide_eq_true contra).1 (not_le.mpr (early time member))
    have all : inside.countP (fun time => start ≤ time ∧ time ≤ start + length) = inside.length :=
      List.countP_eq_length.mpr fun time member => decide_eq_true (inTime time member)
    have past : after.countP (fun time => start ≤ time ∧ time ≤ start + length) = 0 :=
      List.countP_eq_zero.mpr fun time member contra =>
        absurd (of_decide_eq_true contra).2 (not_le.mpr (late time member))
    rw [List.countP_append, List.countP_append, none, all, past]
    omega
  rw [counted]
  cases inside with
  | nil =>
      have share : 0 ≤ length / gap := div_nonneg nonneg positive.le
      simp only [List.length_nil, Nat.cast_zero]
      linarith
  | cons first rest =>
      have chain := spaced.left_of_append.right_of_append
      have gaps := add_gaps_le chain fun time member => (inTime time member).2
      have begins := (inTime first (by simp)).1
      have paid : (rest.length : K) ≤ length / gap := by
        rw [le_div_iff₀ positive]
        linarith
      rw [List.length_cons]
      push_cast
      linarith

end Spaced

end DjApp.Library.Windows
