import DjApp.Library.BinaryRounding
import Mathlib.Tactic.NormNum

/-! How far a rounding is from the value it rounds. -/

set_option autoImplicit false

namespace DjApp.Library

/-- A rounding that errs by a share of the value and a constant, and keeps signs. -/
structure ErrsBy (fl : ℚ → ℚ) (relative absolute : ℚ) : Prop where
  error : ∀ value, |fl value - value| ≤ relative * |value| + absolute
  nonneg : ∀ value, 0 ≤ value → 0 ≤ fl value

namespace BinaryRounding

theorem abs_roundHalfEven_sub_le (value : ℚ) : |(roundHalfEven value : ℚ) - value| ≤ 1 / 2 := by
  have lower := Int.floor_le value
  have upper := Int.lt_floor_add_one value
  rw [abs_le]
  simp only [roundHalfEven]
  split_ifs <;> push_cast <;> constructor <;> linarith

/-- Half of the spacing around the value. -/
theorem abs_round_sub_le (format : Format) (value : ℚ) :
    |round format value - value| ≤ 2 ^ quantumExponent format value / 2 := by
  have positive : (0 : ℚ) < 2 ^ quantumExponent format value := zpow_pos two_pos _
  have scaled := abs_roundHalfEven_sub_le (value / 2 ^ quantumExponent format value)
  have split : round format value - value =
      ((roundHalfEven (value / 2 ^ quantumExponent format value) : ℚ) -
        value / 2 ^ quantumExponent format value) * 2 ^ quantumExponent format value := by
    rw [round, sub_mul, div_mul_cancel₀ _ positive.ne']
  rw [split, abs_mul, abs_of_pos positive]
  calc |(roundHalfEven (value / 2 ^ quantumExponent format value) : ℚ) -
          value / 2 ^ quantumExponent format value| * 2 ^ quantumExponent format value
      ≤ 1 / 2 * 2 ^ quantumExponent format value :=
        mul_le_mul_of_nonneg_right scaled positive.le
    _ = 2 ^ quantumExponent format value / 2 := by ring

theorem spacing_le (format : Format) (value : ℚ) (nonzero : value ≠ 0) :
    (2 : ℚ) ^ quantumExponent format value / 2 ≤
      2 ^ (-format.precision : ℤ) * |value| + 2 ^ (format.minExponent - 1) := by
  have logLe : (2 : ℚ) ^ Int.log 2 |value| ≤ |value| := by
    simpa using Int.zpow_log_le_self (show 1 < 2 by norm_num) (abs_pos.mpr nonzero)
  have shareNonneg : (0 : ℚ) ≤ 2 ^ (-format.precision : ℤ) * |value| :=
    mul_nonneg (zpow_pos two_pos _).le (abs_nonneg value)
  have leastPos : (0 : ℚ) < 2 ^ (format.minExponent - 1) := zpow_pos two_pos _
  have halved : ∀ exponent : ℤ, (2 : ℚ) ^ exponent / 2 = 2 ^ (exponent - 1) := fun exponent => by
    rw [zpow_sub_one₀ two_ne_zero, div_eq_mul_inv]
  rw [halved]
  rcases max_cases format.minExponent (Int.log 2 |value| + 1 - format.precision) with
    ⟨same, _⟩ | ⟨same, _⟩
  · rw [quantumExponent, same]
    linarith
  · rw [quantumExponent, same]
    have share : (2 : ℚ) ^ (Int.log 2 |value| + 1 - format.precision - 1) =
        2 ^ (-format.precision : ℤ) * 2 ^ Int.log 2 |value| := by
      rw [← zpow_add₀ two_ne_zero]
      congr 1
      ring
    rw [share]
    have scaled := mul_le_mul_of_nonneg_left logLe
      (zpow_pos two_pos (-format.precision : ℤ) : (0 : ℚ) < _).le
    linarith

theorem errsBy_round (format : Format) (wide : 1 ≤ format.precision) :
    ErrsBy (round format) (2 ^ (-format.precision : ℤ)) (2 ^ (format.minExponent - 1)) where
  error value := by
    by_cases zero : value = 0
    · have leastPos : (0 : ℚ) < 2 ^ (format.minExponent - 1) := zpow_pos two_pos _
      subst zero
      simpa [round, roundHalfEven] using leastPos.le
    · exact (abs_round_sub_le format value).trans (spacing_le format value zero)
  nonneg value below := by
    refine representable_le_round_of_le format wide ?_ below
    exact ⟨0, format.minExponent, by simp, le_rfl, by simp⟩

end BinaryRounding

end DjApp.Library
