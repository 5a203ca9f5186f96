import DjApp.Library.ExactRounding

/-! Doubles with what lies beyond them: a result that is too large is an infinity, and an
operation without a result is not a number. The sign of a zero is left out. -/

set_option autoImplicit false

namespace DjApp.Library

open BinaryRounding (double double_mono representable_double Representable binary64)

inductive Ieee where
  | finite (value : ℚ)
  | infinite (negative : Bool)
  | nan
  deriving DecidableEq

namespace Ieee

/-- The nearest double, or an infinity. -/
def ofRat (value : ℚ) : Ieee :=
  if |double value| < 2 ^ 1024 then .finite (double value) else .infinite (value < 0)

def neg : Ieee → Ieee
  | .finite value => .finite (-value)
  | .infinite negative => .infinite !negative
  | .nan => .nan

def add : Ieee → Ieee → Ieee
  | .finite left, .finite right => ofRat (left + right)
  | .infinite left, .infinite right => if left = right then .infinite left else .nan
  | .infinite negative, .finite _ => .infinite negative
  | .finite _, .infinite negative => .infinite negative
  | .nan, _ => .nan
  | _, .nan => .nan

def sub (left right : Ieee) : Ieee := left.add right.neg

def mul : Ieee → Ieee → Ieee
  | .finite left, .finite right => ofRat (left * right)
  | .infinite left, .infinite right => .infinite (left != right)
  | .infinite negative, .finite value =>
      if value = 0 then .nan else .infinite (negative != (value < 0 : Bool))
  | .finite value, .infinite negative =>
      if value = 0 then .nan else .infinite (negative != (value < 0 : Bool))
  | .nan, _ => .nan
  | _, .nan => .nan

/-- The part of a rational before the point. -/
def truncate (value : ℚ) : ℤ := if 0 ≤ value then ⌊value⌋ else ⌈value⌉

/-- `std::fmod`, which is exact. -/
def fmod : Ieee → Ieee → Ieee
  | .finite value, .finite modulus =>
      if modulus = 0 then .nan else .finite (value - modulus * truncate (value / modulus))
  | .finite value, .infinite _ => .finite value
  | _, _ => .nan

/-- No comparison with what is not a number holds. -/
def lt : Ieee → Ieee → Bool
  | .finite left, .finite right => left < right
  | .infinite true, .finite _ => true
  | .infinite true, .infinite false => true
  | .finite _, .infinite false => true
  | _, _ => false

def le : Ieee → Ieee → Bool
  | .finite left, .finite right => left ≤ right
  | .infinite left, .infinite right => left || !right
  | .infinite negative, .finite _ => negative
  | .finite _, .infinite negative => !negative
  | .nan, _ => false
  | _, .nan => false

def abs : Ieee → Ieee
  | .finite value => .finite |value|
  | .infinite _ => .infinite false
  | .nan => .nan

def min (left right : Ieee) : Ieee := if right.lt left then right else left

def floor : Ieee → Ieee
  | .finite value => .finite ⌊value⌋
  | other => other

/-- `static_cast<int>`, which is undefined for what no `int` can hold. -/
def toInt : Ieee → Option ℤ
  | .finite value =>
      if -2 ^ 31 ≤ truncate value ∧ truncate value < 2 ^ 31 then some (truncate value) else none
  | _ => none

section Bounds

/-- A number of at most so many binary digits before the point. -/
def Within (digits : ℕ) (number : Ieee) : Prop := ∃ value, number = .finite value ∧ |value| ≤ 2 ^ digits

variable {digits : ℕ}

theorem within_finite {value : ℚ} (small : |value| ≤ 2 ^ digits) : Within digits (.finite value) :=
  ⟨value, rfl, small⟩

theorem Within.mono {number : Ieee} {more : ℕ} (within : Within digits number)
    (grows : digits ≤ more) : Within more number := by
  obtain ⟨value, rfl, small⟩ := within
  exact within_finite (small.trans (pow_le_pow_right₀ one_le_two grows))

theorem representable_two_pow (digits : ℕ) : Representable binary64 (2 ^ digits) :=
  ⟨1, digits, by decide, (by decide : (-1074 : ℤ) ≤ 0).trans (Int.natCast_nonneg digits),
    by simp⟩

theorem abs_double_le {value : ℚ} (small : |value| ≤ 2 ^ digits) : |double value| ≤ 2 ^ digits := by
  obtain ⟨low, high⟩ := abs_le.mp small
  rw [abs_le]
  constructor
  · have below := double_mono low
    rwa [(representable_two_pow digits).neg.double_eq] at below
  · have above := double_mono high
    rwa [(representable_two_pow digits).double_eq] at above

theorem ofRat_eq {value : ℚ} (small : |value| ≤ 2 ^ digits) (fits : digits < 1024) :
    ofRat value = .finite (double value) := by
  refine if_pos ((abs_double_le small).trans_lt ?_)
  exact pow_lt_pow_right₀ one_lt_two fits

theorem within_ofRat {value : ℚ} (small : |value| ≤ 2 ^ digits) (fits : digits < 1024) :
    Within digits (ofRat value) := by
  rw [ofRat_eq small fits]
  exact within_finite (abs_double_le small)

theorem abs_add_le_two_pow {left right : ℚ} (small : |left| ≤ 2 ^ digits)
    (little : |right| ≤ 2 ^ digits) : |left + right| ≤ 2 ^ (digits + 1) := by
  calc |left + right| ≤ |left| + |right| := abs_add_le left right
    _ ≤ 2 ^ digits + 2 ^ digits := add_le_add small little
    _ = 2 ^ (digits + 1) := by ring

theorem Within.neg {number : Ieee} (within : Within digits number) : Within digits number.neg := by
  obtain ⟨value, rfl, small⟩ := within
  exact within_finite (by rwa [abs_neg])

theorem Within.mul {more : ℕ} {left right : Ieee} (first : Within digits left)
    (second : Within more right) (fits : digits + more < 1024) :
    Within (digits + more) (left.mul right) := by
  obtain ⟨left, rfl, small⟩ := first
  obtain ⟨right, rfl, little⟩ := second
  refine within_ofRat ?_ fits
  rw [abs_mul, pow_add]
  exact mul_le_mul small little (abs_nonneg right) (by positivity)

/-- A number that is small beside a power of two does not carry a sum beyond it. -/
theorem Within.add_small {small : ℕ} {left right : Ieee} (first : Within digits left)
    (second : Within small right) (saturates : double (2 ^ digits + 2 ^ small) = 2 ^ digits)
    (fits : digits < 1024) : Within digits (left.add right) := by
  obtain ⟨left, rfl, large⟩ := first
  obtain ⟨right, rfl, little⟩ := second
  have near : |left + right| ≤ 2 ^ digits + 2 ^ small :=
    (abs_add_le left right).trans (add_le_add large little)
  have rounded : |double (left + right)| ≤ 2 ^ digits := by
    obtain ⟨low, high⟩ := abs_le.mp near
    rw [abs_le]
    constructor
    · have below := double_mono low
      rwa [double, BinaryRounding.round_neg, ← double, saturates] at below
    · exact (double_mono high).trans saturates.le
  have finite : (Ieee.finite left).add (.finite right) = .finite (double (left + right)) :=
    if_pos (rounded.trans_lt (pow_lt_pow_right₀ one_lt_two fits))
  rw [finite]
  exact within_finite rounded

/-- Two doubles that differ have a difference that does not round to zero. -/
theorem double_sub_pos {low high : ℚ} (first : Representable binary64 low)
    (second : Representable binary64 high) (ordered : low < high) : 0 < double (high - low) := by
  have unit (value : ℚ) (representable : Representable binary64 value) :
      ∃ multiple : ℤ, value = multiple * 2 ^ binary64.minExponent := by
    obtain ⟨significand, exponent, _, large, rfl⟩ := representable
    obtain ⟨gap, rfl⟩ := Int.le.dest large
    refine ⟨significand * 2 ^ gap, ?_⟩
    rw [zpow_add₀ two_ne_zero, zpow_natCast]
    push_cast
    ring
  obtain ⟨lower, rfl⟩ := unit low first
  obtain ⟨upper, rfl⟩ := unit high second
  have least : Representable binary64 (2 ^ binary64.minExponent) :=
    ⟨1, _, by decide, le_rfl, by simp⟩
  have positive : (0 : ℚ) < 2 ^ binary64.minExponent := zpow_pos two_pos _
  have apart : (1 : ℤ) ≤ upper - lower := by
    have less : (lower : ℚ) < upper := lt_of_mul_lt_mul_right ordered positive.le
    have order : lower < upper := by exact_mod_cast less
    omega
  have reached : (2 : ℚ) ^ binary64.minExponent ≤
      upper * 2 ^ binary64.minExponent - lower * 2 ^ binary64.minExponent := by
    rw [← sub_mul]
    apply le_mul_of_one_le_left positive.le
    exact_mod_cast apart
  have rounded := double_mono reached
  rw [least.double_eq] at rounded
  exact positive.trans_le rounded

end Bounds

theorem truncate_eq_floor {value : ℚ} (nonneg : 0 ≤ value) : truncate value = ⌊value⌋ := if_pos nonneg

theorem toInt_finite {value : ℚ} (nonneg : 0 ≤ value) (small : value < 2 ^ 31) :
    toInt (.finite value) = some ⌊value⌋ := by
  have low : 0 ≤ ⌊value⌋ := Int.floor_nonneg.mpr nonneg
  have high : ⌊value⌋ < 2 ^ 31 := Int.floor_lt.mpr (by push_cast; exact small)
  simp only [toInt, truncate_eq_floor nonneg]
  rw [if_pos ⟨by omega, high⟩]

end Ieee

end DjApp.Library
