import Mathlib.Data.Int.Log
import Mathlib.Data.Rat.Floor
import Mathlib.Tactic.Linarith
import Mathlib.Tactic.Positivity
import Mathlib.Tactic.Ring
import Mathlib.Tactic.FieldSimp

/-! Rounding of rationals to a binary floating-point format, to nearest with ties
to even. Overflow is not part of the rounding: a caller bounds the result. -/

set_option autoImplicit false

namespace DjApp.Library.BinaryRounding

/-- Significand width and the exponent of the least positive value. -/
structure Format where
  precision : ℕ
  minExponent : ℤ
  deriving DecidableEq

def binary32 : Format := ⟨24, -149⟩

def binary64 : Format := ⟨53, -1074⟩

/-- The nearest integer; a half goes to the even neighbour. -/
def roundHalfEven (value : ℚ) : ℤ :=
  let below := ⌊value⌋
  if value - below < 1 / 2 then below
  else if 1 / 2 < value - below then below + 1
  else if below % 2 = 0 then below else below + 1

/-- Exponent of the spacing of the format around `value`. -/
def quantumExponent (format : Format) (value : ℚ) : ℤ :=
  max format.minExponent (Int.log 2 |value| + 1 - format.precision)

def round (format : Format) (value : ℚ) : ℚ :=
  roundHalfEven (value / 2 ^ quantumExponent format value) * 2 ^ quantumExponent format value

/-- A finite value of the format. The significand may be one unit too large:
that value is a power of two, and so is representable with the next exponent. -/
def Representable (format : Format) (value : ℚ) : Prop :=
  ∃ (significand exponent : ℤ), |significand| ≤ 2 ^ format.precision ∧
    format.minExponent ≤ exponent ∧ value = significand * 2 ^ exponent

@[simp] theorem roundHalfEven_intCast (value : ℤ) : roundHalfEven value = value := by
  simp [roundHalfEven]

theorem roundHalfEven_le_of_le (value : ℚ) (bound : ℤ) (below : value ≤ bound) :
    roundHalfEven value ≤ bound := by
  have floorLe := Int.floor_le value
  rcases lt_or_eq_of_le below with strict | equal
  · have belowBound : ⌊value⌋ < bound := Int.floor_lt.mpr strict
    simp only [roundHalfEven]
    split_ifs <;> omega
  · rw [equal, roundHalfEven_intCast]

theorem le_roundHalfEven_of_le (value : ℚ) (bound : ℤ) (above : (bound : ℚ) ≤ value) :
    bound ≤ roundHalfEven value := by
  have boundLe : bound ≤ ⌊value⌋ := Int.le_floor.mpr above
  simp only [roundHalfEven]
  split_ifs <;> omega

private theorem two_zpow_pos (exponent : ℤ) : (0 : ℚ) < 2 ^ exponent :=
  zpow_pos two_pos exponent

/-- A multiple of the local spacing bounds the rounding of everything below it. -/
theorem round_le_multiple (format : Format) (value : ℚ) (multiple : ℤ)
    (below : value ≤ multiple * 2 ^ quantumExponent format value) :
    round format value ≤ multiple * 2 ^ quantumExponent format value := by
  have positive := two_zpow_pos (quantumExponent format value)
  have scaled : value / 2 ^ quantumExponent format value ≤ multiple :=
    (div_le_iff₀ positive).mpr below
  have bounded := roundHalfEven_le_of_le _ _ scaled
  exact mul_le_mul_of_nonneg_right (by exact_mod_cast bounded) positive.le

private theorem zpow_split (exponent quantum : ℤ) (ordered : quantum ≤ exponent) :
    ∃ factor : ℤ, (2 : ℚ) ^ exponent = factor * 2 ^ quantum := by
  obtain ⟨gap, rfl⟩ := Int.le.dest ordered
  refine ⟨2 ^ gap, ?_⟩
  rw [zpow_add₀ two_ne_zero, zpow_natCast]
  push_cast
  ring

private theorem natPow_eq_zpow (exponent : ℕ) : ((2 : ℤ) ^ exponent : ℚ) = 2 ^ (exponent : ℤ) := by
  rw [zpow_natCast]
  norm_num

/-- A representable value is a multiple of the spacing around `value`, or lies
within the power of two below `value`. -/
private theorem representable_multiple_or_small (format : Format) (value bound : ℚ)
    (representable : Representable format bound) :
    (∃ multiple : ℤ, bound = multiple * 2 ^ quantumExponent format value) ∨
      quantumExponent format value = Int.log 2 |value| + 1 - format.precision ∧
        |bound| ≤ 2 ^ (Int.log 2 |value|) := by
  obtain ⟨significand, exponent, small, large, rfl⟩ := representable
  by_cases coarse : quantumExponent format value ≤ exponent
  · obtain ⟨factor, split⟩ := zpow_split exponent _ coarse
    refine .inl ⟨significand * factor, ?_⟩
    rw [split]
    push_cast
    ring
  · right
    have quantum : quantumExponent format value = Int.log 2 |value| + 1 - format.precision := by
      unfold quantumExponent at coarse ⊢
      omega
    refine ⟨quantum, ?_⟩
    rw [abs_mul, abs_of_pos (two_zpow_pos exponent)]
    have cast : |(significand : ℚ)| ≤ 2 ^ (format.precision : ℤ) := by
      rw [← natPow_eq_zpow]
      exact_mod_cast small
    calc |(significand : ℚ)| * 2 ^ exponent
        ≤ 2 ^ (format.precision : ℤ) * 2 ^ exponent :=
          mul_le_mul_of_nonneg_right cast (two_zpow_pos exponent).le
      _ = 2 ^ (format.precision + exponent) := (zpow_add₀ two_ne_zero _ _).symm
      _ ≤ 2 ^ (Int.log 2 |value|) := zpow_le_zpow_right₀ one_le_two (by omega)

private theorem power_multiple (format : Format) (value : ℚ) (wide : 1 ≤ format.precision)
    (quantum : quantumExponent format value = Int.log 2 |value| + 1 - format.precision) :
    ∃ multiple : ℤ, (2 : ℚ) ^ (Int.log 2 |value|) = multiple * 2 ^ quantumExponent format value :=
  zpow_split _ _ (by omega)

theorem round_le_of_le_representable (format : Format) (wide : 1 ≤ format.precision)
    {value bound : ℚ} (representable : Representable format bound) (below : value ≤ bound) :
    round format value ≤ bound := by
  rcases representable_multiple_or_small format value bound representable with
    ⟨multiple, rfl⟩ | ⟨quantum, small⟩
  · exact round_le_multiple format value multiple below
  · obtain ⟨multiple, power⟩ := power_multiple format value wide quantum
    by_cases zero : value = 0
    · have zeroRound : round format value ≤ (0 : ℤ) * 2 ^ quantumExponent format value :=
        round_le_multiple format value 0 (by simp [zero])
      simp only [Int.cast_zero, zero_mul] at zeroRound
      exact zeroRound.trans (zero ▸ below)
    · have lower : (2 : ℚ) ^ (Int.log 2 |value|) ≤ |value| := by
        have := Int.zpow_log_le_self (show 1 < 2 by norm_num) (abs_pos.mpr zero)
        simpa using this
      rcases le_or_gt 0 value with nonneg | negative
      · have boundNonneg : 0 ≤ bound := nonneg.trans below
        rw [abs_of_nonneg boundNonneg] at small
        rw [abs_of_nonneg nonneg] at lower power small quantum
        have equal : bound = multiple * 2 ^ quantumExponent format value := by
          rw [← power]
          exact le_antisymm small (lower.trans below)
        rw [equal] at below ⊢
        exact round_le_multiple format value multiple below
      · have upper : value ≤ ((-multiple : ℤ) : ℚ) * 2 ^ quantumExponent format value := by
          rw [abs_of_neg negative] at lower power
          push_cast
          rw [neg_mul, ← power]
          linarith
        have rounded := round_le_multiple format value (-multiple) upper
        have boundLower : -(2 : ℚ) ^ (Int.log 2 |value|) ≤ bound := (abs_le.mp small).1
        rw [power] at boundLower
        push_cast at rounded
        linarith

@[simp] theorem quantumExponent_neg (format : Format) (value : ℚ) :
    quantumExponent format (-value) = quantumExponent format value := by
  simp [quantumExponent]

/-- Ties go to the even neighbour on either side of zero. -/
theorem roundHalfEven_neg (value : ℚ) : roundHalfEven (-value) = -roundHalfEven value := by
  by_cases whole : (⌊value⌋ : ℚ) = value
  · rw [← whole, ← Int.cast_neg, roundHalfEven_intCast, roundHalfEven_intCast]
  · have lower := Int.floor_le value
    have upper := Int.lt_floor_add_one value
    have strict : (⌊value⌋ : ℚ) < value := lt_of_le_of_ne lower whole
    have floorNeg : ⌊-value⌋ = -⌊value⌋ - 1 := by
      rw [Int.floor_eq_iff]
      push_cast
      constructor <;> linarith
    simp only [roundHalfEven, floorNeg]
    push_cast
    split_ifs <;> first | omega | (exfalso; linarith)

@[simp] theorem round_neg (format : Format) (value : ℚ) :
    round format (-value) = -round format value := by
  simp only [round, quantumExponent_neg, neg_div, roundHalfEven_neg]
  push_cast
  ring

theorem Representable.neg {format : Format} {value : ℚ}
    (representable : Representable format value) : Representable format (-value) := by
  obtain ⟨significand, exponent, small, large, rfl⟩ := representable
  refine ⟨-significand, exponent, by rwa [abs_neg], large, ?_⟩
  push_cast
  ring

theorem representable_le_round_of_le (format : Format) (wide : 1 ≤ format.precision)
    {value bound : ℚ} (representable : Representable format bound) (above : bound ≤ value) :
    bound ≤ round format value := by
  have mirrored := round_le_of_le_representable format wide representable.neg
    (neg_le_neg above)
  rw [round_neg] at mirrored
  linarith

theorem Representable.round_eq {format : Format} (wide : 1 ≤ format.precision) {value : ℚ}
    (representable : Representable format value) : round format value = value :=
  le_antisymm (round_le_of_le_representable format wide representable le_rfl)
    (representable_le_round_of_le format wide representable le_rfl)

theorem round_representable (format : Format) (value : ℚ) :
    Representable format (round format value) := by
  have positive := two_zpow_pos (quantumExponent format value)
  have magnitude : |value| ≤ 2 ^ (format.precision : ℤ) * 2 ^ quantumExponent format value := by
    rw [← zpow_add₀ two_ne_zero]
    have below := Int.lt_zpow_succ_log_self (show 1 < 2 by norm_num) |value|
    refine le_trans (le_of_lt (by simpa using below)) (zpow_le_zpow_right₀ one_le_two ?_)
    unfold quantumExponent
    omega
  obtain ⟨lower, upper⟩ := abs_le.mp magnitude
  refine ⟨roundHalfEven (value / 2 ^ quantumExponent format value),
    quantumExponent format value, ?_, le_max_left _ _, rfl⟩
  rw [← natPow_eq_zpow] at lower upper
  refine abs_le.mpr ⟨le_roundHalfEven_of_le _ _ ?_, roundHalfEven_le_of_le _ _ ?_⟩
  · rw [le_div_iff₀ positive]
    push_cast
    push_cast at lower
    linarith
  · rw [div_le_iff₀ positive]
    exact_mod_cast upper

@[simp] theorem round_round (format : Format) (wide : 1 ≤ format.precision) (value : ℚ) :
    round format (round format value) = round format value :=
  (round_representable format value).round_eq wide

/-- The difference of two values is a value of the format where neither is more than twice
the other. -/
theorem Representable.sub {format : Format} {larger smaller : ℚ}
    (left : Representable format larger) (right : Representable format smaller)
    (ordered : smaller ≤ larger) (near : larger ≤ 2 * smaller) :
    Representable format (larger - smaller) := by
  obtain ⟨first, exponent, firstSmall, firstLarge, rfl⟩ := left
  obtain ⟨second, quantum, secondSmall, secondLarge, rfl⟩ := right
  rcases le_total exponent quantum with coarse | coarse
  · obtain ⟨factor, split⟩ := zpow_split quantum exponent coarse
    have positive := two_zpow_pos exponent
    rw [split, ← mul_assoc] at ordered near ⊢
    rw [← mul_assoc] at near
    have lower : (second : ℚ) * factor ≤ first := le_of_mul_le_mul_right ordered positive
    have upper : (first : ℚ) ≤ 2 * (second * factor) := by
      refine le_of_mul_le_mul_right ?_ positive
      linarith
    have nonneg : 0 ≤ second * factor ∧ second * factor ≤ first := by
      constructor
      · exact_mod_cast (by linarith : (0 : ℚ) ≤ second * factor)
      · exact_mod_cast lower
    refine ⟨first - second * factor, exponent, ?_, firstLarge, ?_⟩
    · rw [abs_of_nonneg (sub_nonneg.mpr nonneg.2)]
      exact (sub_le_self first nonneg.1).trans ((le_abs_self first).trans firstSmall)
    · push_cast
      ring
  · obtain ⟨factor, split⟩ := zpow_split exponent quantum coarse
    have positive := two_zpow_pos quantum
    rw [split, ← mul_assoc] at ordered near ⊢
    rw [← mul_assoc] at near
    have lower : (second : ℚ) ≤ first * factor := le_of_mul_le_mul_right ordered positive
    have upper : (first : ℚ) * factor ≤ 2 * second := le_of_mul_le_mul_right near positive
    have bounds : second ≤ first * factor ∧ first * factor ≤ 2 * second := by
      exact_mod_cast And.intro lower upper
    refine ⟨first * factor - second, quantum, ?_, secondLarge, ?_⟩
    · rw [abs_of_nonneg (sub_nonneg.mpr bounds.1)]
      exact le_trans (by linarith [bounds.2]) ((le_abs_self second).trans secondSmall)
    · push_cast
      ring

theorem roundHalfEven_of_near {value : ℚ} {nearest : ℤ} (near : |value - nearest| < 1 / 2) :
    roundHalfEven value = nearest := by
  obtain ⟨low, high⟩ := abs_lt.mp near
  rcases le_or_gt (nearest : ℚ) value with above | below
  · have floor : ⌊value⌋ = nearest := Int.floor_eq_iff.mpr ⟨above, by linarith⟩
    simp only [roundHalfEven, floor]
    rw [if_pos high]
  · have floor : ⌊value⌋ = nearest - 1 :=
      Int.floor_eq_iff.mpr ⟨by push_cast; linarith, by push_cast; linarith⟩
    simp only [roundHalfEven, floor]
    push_cast
    rw [if_neg (by linarith), if_pos (by linarith)]
    ring

/-- What lies within half a spacing of a multiple of it is rounded to that. -/
theorem round_of_near {format : Format} {value : ℚ} {multiple quantum : ℤ}
    (spacing : quantumExponent format value = quantum)
    (near : |value - multiple * 2 ^ quantum| < 2 ^ quantum / 2) :
    round format value = multiple * 2 ^ quantum := by
  have positive := two_zpow_pos quantum
  have scaled : |value / 2 ^ quantum - multiple| < 1 / 2 := by
    have split : value / 2 ^ quantum - multiple = (value - multiple * 2 ^ quantum) / 2 ^ quantum := by
      field_simp
    rw [split, abs_div, abs_of_pos positive, div_lt_iff₀ positive]
    linarith
  rw [round, spacing, roundHalfEven_of_near scaled]

theorem Representable.least_le_abs {format : Format} {value : ℚ}
    (representable : Representable format value) (nonzero : value ≠ 0) :
    2 ^ format.minExponent ≤ |value| := by
  obtain ⟨significand, exponent, _, large, rfl⟩ := representable
  have some : significand ≠ 0 := by
    rintro rfl
    simp at nonzero
  have unit : (1 : ℚ) ≤ |(significand : ℚ)| := by exact_mod_cast Int.one_le_abs some
  rw [abs_mul, abs_of_pos (two_zpow_pos exponent)]
  calc (2 : ℚ) ^ format.minExponent ≤ 2 ^ exponent := zpow_le_zpow_right₀ one_le_two large
    _ ≤ |(significand : ℚ)| * 2 ^ exponent := le_mul_of_one_le_left (two_zpow_pos exponent).le unit

theorem roundHalfEven_mono {left right : ℚ} (ordered : left ≤ right) :
    roundHalfEven left ≤ roundHalfEven right := by
  have floors : ⌊left⌋ ≤ ⌊right⌋ := Int.floor_mono ordered
  rcases lt_or_eq_of_le floors with less | same
  · have upper : roundHalfEven left ≤ ⌊left⌋ + 1 := by
      apply roundHalfEven_le_of_le left _
      push_cast
      exact (Int.lt_floor_add_one left).le
    exact upper.trans (le_trans less (le_roundHalfEven_of_le right _ (Int.floor_le right)))
  · simp only [roundHalfEven, same]
    split_ifs <;> linarith

theorem round_mono_of_pos {format : Format} (wide : 1 ≤ format.precision) {left right : ℚ}
    (positive : 0 < left) (ordered : left ≤ right) : round format left ≤ round format right := by
  have above : 0 < right := positive.trans_le ordered
  have logs : Int.log 2 left ≤ Int.log 2 right := Int.log_mono_right positive ordered
  rcases eq_or_ne (quantumExponent format left) (quantumExponent format right) with same | different
  · have spacing : (0 : ℚ) < 2 ^ quantumExponent format right := zpow_pos two_pos _
    rw [round, round, same]
    refine mul_le_mul_of_nonneg_right ?_ spacing.le
    exact_mod_cast roundHalfEven_mono (div_le_div_of_nonneg_right ordered spacing.le)
  · -- A power of two lies between values of different spacing.
    have normal : format.minExponent ≤ Int.log 2 right ∧ Int.log 2 left + 1 ≤ Int.log 2 right := by
      unfold quantumExponent at different
      rw [abs_of_pos positive, abs_of_pos above] at different
      omega
    have power : Representable format (2 ^ Int.log 2 right) :=
      ⟨1, Int.log 2 right, by rw [abs_one]; exact one_le_pow₀ (by norm_num), normal.1, by simp⟩
    have below : left ≤ 2 ^ Int.log 2 right := by
      have next : left < 2 ^ (Int.log 2 left + 1) := by
        simpa using Int.lt_zpow_succ_log_self (show 1 < 2 by norm_num) left
      exact next.le.trans (zpow_le_zpow_right₀ one_le_two normal.2)
    have reached : (2 : ℚ) ^ Int.log 2 right ≤ right := by
      simpa using Int.zpow_log_le_self (show 1 < 2 by norm_num) above
    exact (round_le_of_le_representable format wide power below).trans
      (representable_le_round_of_le format wide power reached)

theorem round_mono {format : Format} (wide : 1 ≤ format.precision) {left right : ℚ}
    (ordered : left ≤ right) : round format left ≤ round format right := by
  have zero : Representable format 0 := ⟨0, format.minExponent, by simp, le_rfl, by simp⟩
  rcases lt_or_ge 0 left with positive | low
  · exact round_mono_of_pos wide positive ordered
  · rcases lt_or_ge right 0 with negative | high
    · have mirrored := round_mono_of_pos wide (neg_pos.mpr negative) (neg_le_neg ordered)
      rw [round_neg, round_neg] at mirrored
      exact neg_le_neg_iff.mp mirrored
    · exact (round_le_of_le_representable format wide zero low).trans
        (representable_le_round_of_le format wide zero high)

theorem representable_natCast {format : Format} (fine : format.minExponent ≤ 0) {whole : ℕ}
    (small : whole ≤ 2 ^ format.precision) : Representable format whole :=
  ⟨whole, 0, by rw [abs_of_nonneg (Int.natCast_nonneg whole)]; exact_mod_cast small, fine, by simp⟩

/-- The rounding of one operation on doubles. -/
def double (value : ℚ) : ℚ := round binary64 value

theorem representable_double (value : ℚ) : Representable binary64 (double value) :=
  round_representable binary64 value

theorem Representable.double_eq {value : ℚ} (representable : Representable binary64 value) :
    double value = value :=
  representable.round_eq (by decide)

theorem double_mono {left right : ℚ} (ordered : left ≤ right) : double left ≤ double right :=
  round_mono (by decide) ordered

theorem double_nonneg {value : ℚ} (nonneg : 0 ≤ value) : 0 ≤ double value :=
  representable_le_round_of_le binary64 (by decide)
    ⟨0, 0, by simp, by decide, by simp⟩ nonneg

end DjApp.Library.BinaryRounding
