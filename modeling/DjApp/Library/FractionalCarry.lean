import Mathlib.Algebra.Order.Floor.Ring
import Mathlib.Data.Rat.Floor
import Mathlib.Tactic.Linarith

/-! Whole units paid out of a running sum of fractions. What is left over is carried, and
no payment is of less than one unit. -/

set_option autoImplicit false

namespace DjApp.Library.FractionalCarry

variable {owed amount : ℚ}

def paid (carry amount : ℚ) : ℤ := max 1 ⌊carry + amount⌋

def leftOver (carry amount : ℚ) : ℚ := carry + amount - paid carry amount

/-- What is left over is less than a unit, and so is what was paid too early. -/
theorem abs_leftOver_le {carry amount : ℚ} (nonneg : 0 ≤ carry + amount) :
    |leftOver carry amount| ≤ 1 := by
  have low := Int.floor_le (carry + amount)
  have high := Int.lt_floor_add_one (carry + amount)
  rw [leftOver, paid, abs_le]
  rcases le_or_gt 1 ⌊carry + amount⌋ with due | early
  · rw [max_eq_right due]
    constructor <;> linarith
  · rw [max_eq_left early.le]
    have below : carry + amount < 1 := Int.floor_lt.mp early
    push_cast
    constructor <;> linarith

theorem floor_fract_add (owed amount : ℚ) :
    ⌊Int.fract owed + amount⌋ = ⌊owed + amount⌋ - ⌊owed⌋ := by
  have split : Int.fract owed + amount = owed + amount - (⌊owed⌋ : ℤ) := by
    rw [Int.fract]
    ring
  rw [split, Int.floor_sub_intCast]

/-- A payment that is due as a whole settles all that is owed in whole units. -/
theorem paid_fract (due : ⌊owed⌋ < ⌊owed + amount⌋) :
    paid (Int.fract owed) amount = ⌊owed + amount⌋ - ⌊owed⌋ := by
  rw [paid, floor_fract_add, max_eq_right (by omega)]

theorem leftOver_fract (due : ⌊owed⌋ < ⌊owed + amount⌋) :
    leftOver (Int.fract owed) amount = Int.fract (owed + amount) := by
  rw [leftOver, paid_fract due, Int.fract, Int.fract]
  push_cast
  ring

/-- The carry stays a fraction exactly if a whole unit came due. -/
theorem leftOver_fract_nonneg_iff (amountPos : 0 ≤ amount) :
    0 ≤ leftOver (Int.fract owed) amount ↔ ⌊owed⌋ < ⌊owed + amount⌋ := by
  constructor
  · intro nonneg
    by_contra early
    have same : ⌊owed + amount⌋ = ⌊owed⌋ :=
      le_antisymm (not_lt.mp early) (Int.floor_le_floor (le_add_of_nonneg_right amountPos))
    have one : paid (Int.fract owed) amount = 1 := by
      rw [paid, floor_fract_add, same, sub_self]
      rfl
    have below := Int.lt_floor_add_one (owed + amount)
    rw [same] at below
    rw [leftOver, one, Int.fract] at nonneg
    push_cast at nonneg
    linarith
  · intro due
    rw [leftOver_fract due]
    exact Int.fract_nonneg _

theorem leftOver_lt_one (carry amount : ℚ) : leftOver carry amount < 1 := by
  have high := Int.lt_floor_add_one (carry + amount)
  have most : (⌊carry + amount⌋ : ℚ) ≤ paid carry amount := by exact_mod_cast le_max_right _ _
  rw [leftOver]
  linarith

def charged (carry : ℚ) : List ℚ → ℤ
  | [] => 0
  | amount :: rest => paid carry amount + charged (leftOver carry amount) rest

theorem leftOver_nonneg {carry : ℚ} (nonneg : 0 ≤ carry) (whole : 1 ≤ amount) :
    0 ≤ leftOver carry amount := by
  have due : 1 ≤ ⌊carry + amount⌋ := Int.le_floor.mpr (by push_cast; linarith)
  have low := Int.floor_le (carry + amount)
  rw [leftOver, paid, max_eq_right due]
  linarith

/-- Amounts of a unit or more are charged what they come to, to less than a unit. -/
theorem abs_charged_sub_lt {carry : ℚ} (nonneg : 0 ≤ carry) (fraction : carry < 1)
    {amounts : List ℚ} (whole : ∀ amount ∈ amounts, 1 ≤ amount) :
    |(charged carry amounts : ℚ) - amounts.sum| < 1 := by
  have settled : ∃ last, 0 ≤ last ∧ last < 1 ∧
      (charged carry amounts : ℚ) - amounts.sum = carry - last := by
    induction amounts generalizing carry with
    | nil => exact ⟨carry, nonneg, fraction, by simp [charged]⟩
    | cons amount rest ih =>
        obtain ⟨own, others⟩ := List.forall_mem_cons.mp whole
        obtain ⟨last, low, high, split⟩ := ih (leftOver_nonneg nonneg own)
          (leftOver_lt_one carry amount) others
        refine ⟨last, low, high, ?_⟩
        have kept : leftOver carry amount = carry + amount - paid carry amount := rfl
        rw [charged, List.sum_cons]
        push_cast
        linarith
  obtain ⟨last, low, high, split⟩ := settled
  rw [split, abs_lt]
  constructor <;> linarith

end DjApp.Library.FractionalCarry
