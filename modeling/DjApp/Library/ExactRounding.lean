import DjApp.Library.RoundingError

/-! Roundings that lose nothing: ties on a whole number, remainders of a division, and an
offset that is taken off and put back. -/

set_option autoImplicit false

namespace DjApp.Library.BinaryRounding

theorem roundHalfEven_of_even {value : ℚ} {nearest : ℤ} (even : nearest % 2 = 0)
    (near : |value - nearest| ≤ 1 / 2) : roundHalfEven value = nearest := by
  rcases lt_or_eq_of_le near with strict | tie
  · exact roundHalfEven_of_near strict
  · rcases eq_or_eq_neg_of_abs_eq tie with above | below
    · have floor : ⌊value⌋ = nearest :=
        Int.floor_eq_iff.mpr ⟨by linarith, by linarith⟩
      simp only [roundHalfEven, floor, above]
      norm_num [even]
    · have floor : ⌊value⌋ = nearest - 1 :=
        Int.floor_eq_iff.mpr ⟨by push_cast; linarith, by push_cast; linarith⟩
      have half : value - ((nearest - 1 : ℤ) : ℚ) = 1 / 2 := by
        push_cast
        linarith
      simp only [roundHalfEven, floor, half, lt_irrefl, ↓reduceIte]
      rw [if_neg (by omega)]
      ring

/-- What lies within half a spacing of an even multiple of it is rounded to that. -/
theorem round_of_even {format : Format} {value : ℚ} {multiple : ℤ} (even : multiple % 2 = 0)
    (near : |value - multiple * 2 ^ quantumExponent format value| ≤
      2 ^ quantumExponent format value / 2) :
    round format value = multiple * 2 ^ quantumExponent format value := by
  have positive : (0 : ℚ) < 2 ^ quantumExponent format value := zpow_pos two_pos _
  have scaled : |value / 2 ^ quantumExponent format value - multiple| ≤ 1 / 2 := by
    have split : value / 2 ^ quantumExponent format value - multiple =
        (value - multiple * 2 ^ quantumExponent format value) /
          2 ^ quantumExponent format value := by
      field_simp
    rw [split, abs_div, abs_of_pos positive, div_le_iff₀ positive]
    linarith
  rw [round, roundHalfEven_of_even even scaled]

theorem Representable.min {format : Format} {left right : ℚ} (first : Representable format left)
    (second : Representable format right) : Representable format (min left right) := by
  rcases min_choice left right with same | same
  · rw [same]
    exact first
  · rw [same]
    exact second

theorem Representable.natCast_sub {format : Format} (fine : format.minExponent ≤ 0) {whole : ℕ}
    {offset : ℚ} (representable : Representable format offset)
    (below : (whole : ℚ) ≤ offset) (small : offset ≤ 2 ^ format.precision) :
    Representable format (whole - offset) := by
  obtain ⟨significand, exponent, bounded, large, rfl⟩ := representable
  rcases le_total exponent 0 with coarse | coarse
  · obtain ⟨gap, split⟩ := Int.le.dest coarse
    have positive : (0 : ℚ) < 2 ^ exponent := zpow_pos two_pos _
    have unit : (1 : ℚ) = 2 ^ gap * 2 ^ exponent := by
      rw [← zpow_natCast, ← zpow_add₀ two_ne_zero, add_comm, split, zpow_zero]
    have scaled : (whole : ℚ) = ((whole * 2 ^ gap : ℤ) : ℚ) * 2 ^ exponent := by
      push_cast
      rw [mul_assoc, ← unit, mul_one]
    rw [scaled] at below ⊢
    have ordered : (whole : ℤ) * 2 ^ gap ≤ significand := by
      exact_mod_cast le_of_mul_le_mul_right below positive
    have nonneg : (0 : ℤ) ≤ whole * 2 ^ gap := by positivity
    refine ⟨whole * 2 ^ gap - significand, exponent, ?_, large, by push_cast; ring⟩
    rw [abs_le] at bounded ⊢
    omega
  · obtain ⟨gap, rfl⟩ := Int.eq_ofNat_of_zero_le coarse
    refine ⟨whole - significand * 2 ^ gap, 0, ?_, fine, by push_cast; simp [zpow_natCast]⟩
    have ordered : (whole : ℤ) ≤ significand * 2 ^ gap := by
      have cast : (whole : ℚ) ≤ ((significand * 2 ^ gap : ℤ) : ℚ) := by
        push_cast
        simpa [zpow_natCast] using below
      exact_mod_cast cast
    have limit : significand * 2 ^ gap ≤ 2 ^ format.precision := by
      have cast : ((significand * 2 ^ gap : ℤ) : ℚ) ≤ ((2 ^ format.precision : ℤ) : ℚ) := by
        push_cast
        simpa [zpow_natCast] using small
      exact_mod_cast cast
    rw [abs_le]
    omega

theorem log_abs_le_of_round_le {format : Format} (wide : 1 ≤ format.precision) {value bound : ℚ}
    (positive : 0 < value) (above : 0 < bound) (below : round format value ≤ bound)
    (normal : format.minExponent ≤ Int.log 2 value) :
    Int.log 2 value ≤ Int.log 2 bound := by
  have power : (2 : ℚ) ^ Int.log 2 value ≤ round format value := by
    refine representable_le_round_of_le format wide ⟨1, Int.log 2 value, ?_, normal, by simp⟩ ?_
    · rw [abs_one]
      exact one_le_pow₀ (by norm_num)
    · simpa using Int.zpow_log_le_self (show 1 < 2 by norm_num) positive
  exact (Int.zpow_le_iff_le_log (show 1 < 2 by norm_num) above).mp (power.trans below)

theorem quantumExponent_le_of_round_le {format : Format} (wide : 1 ≤ format.precision)
    {value bound : ℚ} (positive : 0 < value) (above : 0 < bound)
    (below : round format value ≤ bound) :
    quantumExponent format value ≤ quantumExponent format bound := by
  unfold quantumExponent
  rw [abs_of_pos positive, abs_of_pos above]
  by_cases normal : format.minExponent ≤ Int.log 2 value
  · have logs := log_abs_le_of_round_le wide positive above below normal
    omega
  · omega

theorem quantumExponent_neg_of_lt {format : Format} (fine : format.minExponent < 0) {value : ℚ}
    (positive : 0 < value) (small : value < 2 ^ (format.precision - 1 : ℤ)) :
    quantumExponent format value < 0 := by
  have log : Int.log 2 value < format.precision - 1 :=
    (Int.lt_zpow_iff_log_lt (show 1 < 2 by norm_num) positive).mp (by exact_mod_cast small)
  unfold quantumExponent
  rw [abs_of_pos positive]
  omega

/-- What is taken off a value and added back leaves it past every whole number that it had
reached, whatever the two roundings do. -/
theorem natCast_le_round_round_sub_add {format : Format} (wide : 1 ≤ format.precision)
    (fine : format.minExponent < 0) {whole : ℕ} {value offset : ℚ}
    (small : (whole : ℚ) < 2 ^ (format.precision - 1 : ℤ))
    (representable : Representable format offset) (nonneg : 0 ≤ offset)
    (bounded : offset ≤ 2 ^ format.precision) (reached : (whole : ℚ) ≤ value) :
    (whole : ℚ) ≤ round format (round format (value - offset) + offset) := by
  have half : (2 : ℚ) ^ (format.precision - 1 : ℤ) ≤ 2 ^ format.precision := by
    rw [← zpow_natCast]
    exact zpow_le_zpow_right₀ one_le_two (by omega)
  have wholeRepresentable : Representable format whole :=
    representable_natCast fine.le (by exact_mod_cast (small.trans_le half).le)
  rcases le_or_gt (whole : ℚ) offset with large | less
  · have difference := representable.natCast_sub fine.le large bounded
    have kept := representable_le_round_of_le format wide difference
      (by linarith : (whole : ℚ) - offset ≤ value - offset)
    exact representable_le_round_of_le format wide wholeRepresentable (by linarith)
  · by_contra lost
    have under : round format (value - offset) + offset < whole := by
      by_contra exceeds
      exact lost (representable_le_round_of_le format wide wholeRepresentable (not_lt.mp exceeds))
    have short : value - offset < whole := by
      by_contra long
      have kept := representable_le_round_of_le format wide wholeRepresentable (not_lt.mp long)
      linarith
    have positive : 0 < value - offset := by linarith
    -- The sum misses the whole number by what the difference was rounded by.
    have error := abs_round_sub_le format (value - offset)
    have missed : (whole : ℚ) - (round format (value - offset) + offset) ≤
        2 ^ quantumExponent format (value - offset) / 2 := by
      have low := (abs_le.mp error).1
      linarith
    have unit : (2 : ℚ) ^ quantumExponent format (value - offset) < 1 := by
      rw [← zpow_zero (2 : ℚ)]
      exact zpow_lt_zpow_right₀ one_lt_two
        (quantumExponent_neg_of_lt fine positive (short.trans small))
    have one : (1 : ℚ) ≤ whole := by
      have some : (0 : ℚ) < whole := lt_of_le_of_lt nonneg less
      exact_mod_cast some
    have above : 0 < round format (value - offset) + offset := by linarith
    have coarser := quantumExponent_le_of_round_le wide positive above
      (by linarith : round format (value - offset) ≤ round format (value - offset) + offset)
    have spacing := quantumExponent_neg_of_lt fine above (under.trans small)
    set sum := round format (value - offset) + offset with summed
    -- The whole number is an even multiple of the spacing, so even a tie goes to it.
    obtain ⟨gap, split⟩ := Int.le.dest (Int.add_one_le_iff.mpr spacing)
    have scaled : (whole : ℚ) = ((whole * 2 ^ gap * 2 : ℤ) : ℚ) * 2 ^ quantumExponent format sum := by
      have unit : (1 : ℚ) = 2 ^ gap * 2 * 2 ^ quantumExponent format sum := by
        rw [← zpow_natCast, ← zpow_add_one₀ two_ne_zero, ← zpow_add₀ two_ne_zero]
        have cancel : (gap : ℤ) + 1 + quantumExponent format sum = 0 := by omega
        rw [cancel, zpow_zero]
      push_cast
      rw [mul_assoc, mul_assoc, ← mul_assoc ((2 : ℚ) ^ gap), ← unit, mul_one]
    have near : |sum - ((whole * 2 ^ gap * 2 : ℤ) : ℚ) * 2 ^ quantumExponent format sum| ≤
        2 ^ quantumExponent format sum / 2 := by
      have wider : (2 : ℚ) ^ quantumExponent format (value - offset) ≤
          2 ^ quantumExponent format sum := zpow_le_zpow_right₀ one_le_two coarser
      rw [← scaled, abs_sub_comm, abs_of_pos (by linarith)]
      linarith
    have back := round_of_even (Int.mul_emod_left _ 2) near
    rw [← scaled] at back
    exact lost back.ge

/-- The remainder of a division of two values is a value: `std::fmod` is exact. -/
theorem Representable.fmod {format : Format} {value modulus : ℚ}
    (left : Representable format value) (right : Representable format modulus)
    (nonneg : 0 ≤ value) (positive : 0 < modulus) :
    Representable format (value - modulus * ⌊value / modulus⌋) := by
  have quotient : 0 ≤ ⌊value / modulus⌋ := Int.floor_nonneg.mpr (div_nonneg nonneg positive.le)
  have low : 0 ≤ value - modulus * ⌊value / modulus⌋ := by
    have floor := (le_div_iff₀ positive).mp (Int.floor_le (value / modulus))
    linarith
  have high : value - modulus * ⌊value / modulus⌋ < modulus := by
    have floor := (div_lt_iff₀ positive).mp (Int.lt_floor_add_one (value / modulus))
    linarith
  have less : value - modulus * ⌊value / modulus⌋ ≤ value := by
    have product : 0 ≤ modulus * (⌊value / modulus⌋ : ℚ) :=
      mul_nonneg positive.le (by exact_mod_cast quotient)
    linarith
  generalize ⌊value / modulus⌋ = count at low high less
  obtain ⟨first, exponent, firstSmall, firstLarge, rfl⟩ := left
  obtain ⟨second, quantum, secondSmall, secondLarge, rfl⟩ := right
  rcases le_total exponent quantum with coarse | coarse
  · obtain ⟨gap, rfl⟩ := Int.le.dest coarse
    have spacing : (0 : ℚ) < 2 ^ exponent := zpow_pos two_pos _
    have scaled : (first : ℚ) * 2 ^ exponent - second * 2 ^ (exponent + gap) * count =
        ((first - second * 2 ^ gap * count : ℤ) : ℚ) * 2 ^ exponent := by
      rw [zpow_add₀ two_ne_zero, zpow_natCast]
      push_cast
      ring
    rw [scaled] at low less ⊢
    have bounds : 0 ≤ first - second * 2 ^ gap * count ∧
        first - second * 2 ^ gap * count ≤ first := by
      constructor
      · exact_mod_cast nonneg_of_mul_nonneg_left low spacing
      · exact_mod_cast le_of_mul_le_mul_right less spacing
    refine ⟨_, exponent, ?_, firstLarge, rfl⟩
    rw [abs_of_nonneg bounds.1]
    exact bounds.2.trans ((le_abs_self first).trans firstSmall)
  · obtain ⟨gap, rfl⟩ := Int.le.dest coarse
    have spacing : (0 : ℚ) < 2 ^ quantum := zpow_pos two_pos _
    have scaled : (first : ℚ) * 2 ^ (quantum + gap) - second * 2 ^ quantum * count =
        ((first * 2 ^ gap - second * count : ℤ) : ℚ) * 2 ^ quantum := by
      rw [zpow_add₀ two_ne_zero, zpow_natCast]
      push_cast
      ring
    rw [scaled] at low high ⊢
    have bounds : 0 ≤ first * 2 ^ gap - second * count ∧
        first * 2 ^ gap - second * count < second := by
      constructor
      · exact_mod_cast nonneg_of_mul_nonneg_left low spacing
      · exact_mod_cast lt_of_mul_lt_mul_right high spacing.le
    refine ⟨_, quantum, ?_, secondLarge, rfl⟩
    rw [abs_of_nonneg bounds.1]
    exact bounds.2.le.trans ((le_abs_self second).trans secondSmall)

end DjApp.Library.BinaryRounding
