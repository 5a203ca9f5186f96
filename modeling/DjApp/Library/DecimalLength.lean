import Mathlib.Data.Nat.Digits.Lemmas
import Mathlib.Tactic.Linarith
import Mathlib.Tactic.NormNum
import DjApp.Library.DecimalText

/-! How long the text of a number gets. -/

set_option autoImplicit false

namespace DjApp.Library.DecimalText

section Neighbours

variable {value : ℚ} {fewer : ℕ}

theorem pointOf_le {point : ℤ} (positive : 0 < value) (below : value < 10 ^ point) :
    pointOf value ≤ point := by
  have cast : value < ((10 : ℕ) : ℚ) ^ point := by exact_mod_cast below
  exact (Int.lt_zpow_iff_log_lt (by decide) positive).mp cast

theorem lt_pointOf {point : ℤ} (positive : 0 < value) (reached : 10 ^ point ≤ value) :
    point < pointOf value := by
  have cast : ((10 : ℕ) : ℚ) ^ point ≤ value := by exact_mod_cast reached
  exact Int.lt_add_one_iff.mpr ((Int.zpow_le_iff_le_log (by decide) positive).mp cast)

theorem significand_below_bounds (positive : 0 < value) (fewer : ℕ) :
    10 ^ fewer ≤ (below value (fewer + 1)).significand ∧
      (below value (fewer + 1)).significand < 10 ^ (fewer + 1) := by
  have least : (10 : ℚ) ^ Int.log 10 value ≤ value := by
    simpa using Int.zpow_log_le_self (show 1 < 10 by norm_num) positive
  have most : value < (10 : ℚ) ^ (Int.log 10 value + 1) := by
    simpa using Int.lt_zpow_succ_log_self (show 1 < 10 by norm_num) value
  have scale (power : ℕ) : (10 : ℚ) ^ power * 10 ^ (pointOf value - (fewer + 1 : ℕ)) =
      10 ^ ((power : ℤ) + (pointOf value - (fewer + 1 : ℕ))) := by
    rw [zpow_add₀ (by norm_num), zpow_natCast]
  have positiveScale : (0 : ℚ) < 10 ^ (pointOf value - (fewer + 1 : ℕ)) :=
    zpow_pos (by norm_num) _
  have ratio : 0 ≤ value / 10 ^ (pointOf value - (fewer + 1 : ℕ)) :=
    div_nonneg positive.le positiveScale.le
  constructor
  · apply Nat.le_floor
    rw [le_div_iff₀ positiveScale]
    push_cast
    have exponent : ((fewer : ℤ) + (pointOf value - (fewer + 1 : ℕ))) = Int.log 10 value := by
      unfold pointOf
      push_cast
      ring
    have scaled := scale fewer
    rw [exponent] at scaled
    push_cast at scaled
    rw [scaled]
    exact least
  · apply (Nat.floor_lt ratio).mpr
    rw [div_lt_iff₀ positiveScale]
    push_cast
    have exponent : (((fewer + 1 : ℕ) : ℤ) + (pointOf value - (fewer + 1 : ℕ))) =
        Int.log 10 value + 1 := by
      unfold pointOf
      ring
    have scaled := scale (fewer + 1)
    rw [exponent] at scaled
    push_cast at scaled
    rw [scaled]
    exact most

theorem length_digits_of_bounds {significand : ℕ} (low : 10 ^ fewer ≤ significand)
    (high : significand < 10 ^ (fewer + 1)) :
    (Nat.digits 10 significand).length = fewer + 1 :=
  le_antisymm ((Nat.digits_length_le_iff (by decide) _).mpr high)
    ((Nat.lt_digits_length_iff (by decide) _).mpr low)

theorem length_digits_le (decimal : Decimal) :
    decimal.digits.length ≤ (Nat.digits 10 decimal.significand).length := by
  rw [Decimal.digits, List.length_reverse, List.length_map]
  exact (List.dropWhile_sublist _).length_le

/-- The place of a decimal beside a value: it has the point of the value, or is the power
of ten above it. -/
structure Around (value : ℚ) (digits : ℕ) (decimal : Decimal) : Prop where
  length : decimal.digits.length ≤ digits
  point : decimal.point = pointOf value ∨
    decimal.point = pointOf value + 1 ∧ decimal.digits.length = 1 ∧
      decimal.value = 10 ^ pointOf value

theorem Around.mono {digits more : ℕ} {decimal : Decimal} (around : Around value digits decimal)
    (le : digits ≤ more) : Around value more decimal :=
  ⟨around.length.trans le, around.point⟩

theorem around_of_bounds {significand : ℕ} (low : 10 ^ fewer ≤ significand)
    (high : significand < 10 ^ (fewer + 1)) :
    Around value (fewer + 1) ⟨significand, pointOf value - (fewer + 1 : ℕ)⟩ := by
  have length := length_digits_of_bounds low high
  refine ⟨(length_digits_le _).trans_eq length, .inl ?_⟩
  rw [Decimal.point, length]
  ring

theorem around_power (value : ℚ) (fewer : ℕ) :
    Around value (fewer + 1) ⟨10 ^ (fewer + 1), pointOf value - (fewer + 1 : ℕ)⟩ := by
  have written : Nat.digits 10 (10 ^ (fewer + 1)) = List.replicate (fewer + 1) 0 ++ [1] := by
    simpa using Nat.digits_base_pow_mul (show 1 < 10 by decide) (show 0 < 1 by decide)
      |>.trans (congrArg (List.replicate (fewer + 1) 0 ++ ·) (by simp))
  have single : Decimal.digits ⟨10 ^ (fewer + 1), pointOf value - (fewer + 1 : ℕ)⟩ =
      [Nat.digitChar 1] := by
    rw [Decimal.digits, written, List.dropWhile_append_of_pos (by simp)]
    rfl
  have one := congrArg List.length single
  refine ⟨one.trans_le (Nat.succ_le_succ fewer.zero_le), .inr ⟨?_, one, ?_⟩⟩
  · rw [Decimal.point, written]
    simp only [List.length_append, List.length_replicate, List.length_singleton]
    push_cast
    ring
  · rw [Decimal.value]
    push_cast
    rw [← zpow_natCast, ← zpow_add₀ (by norm_num)]
    congr 1
    push_cast
    ring

theorem around_below (positive : 0 < value) (fewer : ℕ) :
    Around value (fewer + 1) (below value (fewer + 1)) := by
  obtain ⟨low, high⟩ := significand_below_bounds positive fewer
  exact around_of_bounds low high

theorem around_above (positive : 0 < value) (fewer : ℕ) :
    Around value (fewer + 1) (above value (fewer + 1)) := by
  obtain ⟨low, high⟩ := significand_below_bounds positive fewer
  rcases Nat.lt_or_eq_of_le (Nat.succ_le_of_lt high) with inside | power
  · exact around_of_bounds (low.trans (Nat.le_succ _)) inside
  · have same : above value (fewer + 1) =
        ⟨10 ^ (fewer + 1), pointOf value - (fewer + 1 : ℕ)⟩ :=
      congrArg (Decimal.mk · _) power
    rw [same]
    exact around_power value fewer

end Neighbours

section Shortest

variable {round : ℚ → ℚ} {value : ℚ} {fewer most : ℕ} {decimal : Decimal}

theorem closest?_some {digits : ℕ} (found : closest? round value digits = some decimal) :
    round decimal.value = value ∧ (decimal = below value digits ∨ decimal = above value digits) := by
  unfold closest? at found
  dsimp only at found
  split at found
  · rename_i low
    split at found
    · rename_i high
      cases found
      exact ⟨high.1, .inr rfl⟩
    · cases found
      exact ⟨low, .inl rfl⟩
  · split at found
    · rename_i high
      cases found
      exact ⟨high, .inr rfl⟩
    · cases found

/-- So many digits are enough if all that is as near as they get rounds to the value. -/
theorem closest?_isSome {digits : ℕ} (positive : 0 < value)
    (near : ∀ other, |other - value| ≤ 10 ^ (pointOf value - digits) / 2 → round other = value) :
    (closest? round value digits).isSome = true := by
  have scale : (0 : ℚ) < 10 ^ (pointOf value - digits) := zpow_pos (by norm_num) _
  have ratio : 0 ≤ value / 10 ^ (pointOf value - digits) := div_nonneg positive.le scale.le
  have low : (below value digits).value ≤ value := (le_div_iff₀ scale).mp (Nat.floor_le ratio)
  have high : value < (above value digits).value := by
    rw [Decimal.value, above]
    push_cast
    exact (div_lt_iff₀ scale).mp (Nat.lt_floor_add_one _)
  have apart : (above value digits).value =
      (below value digits).value + 10 ^ (pointOf value - digits) := by
    rw [Decimal.value, Decimal.value, above, below]
    push_cast
    ring
  have either : round (below value digits).value = value ∨
      round (above value digits).value = value := by
    rcases le_total (value - (below value digits).value) (10 ^ (pointOf value - digits) / 2) with
      close | far
    · exact .inl (near _ (by rw [abs_of_nonpos (by linarith)]; linarith))
    · exact .inr (near _ (by rw [abs_of_pos (by linarith)]; linarith))
  unfold closest?
  dsimp only
  split
  · split <;> rfl
  · rename_i other
    rw [if_pos (either.resolve_left other)]
    rfl

/-- As many digits as an integer has before its point are enough for it. -/
theorem closest?_natCast {count fewer : ℕ} (point : pointOf count = fewer + 1)
    (exact : round count = count) : (closest? round count (fewer + 1)).isSome = true := by
  have low : (below (count : ℚ) (fewer + 1)).value = count := by
    rw [Decimal.value, below, point]
    simp
  unfold closest?
  dsimp only
  rw [if_pos (by rw [low, exact])]
  split <;> rfl

theorem around_closest? (positive : 0 < value)
    (found : closest? round value (fewer + 1) = some decimal) : Around value (fewer + 1) decimal := by
  rcases (closest?_some found).2 with rfl | rfl
  · exact around_below positive fewer
  · exact around_above positive fewer

/-- If so many digits tell the value, the shortest decimal has no more. -/
theorem closest?_shortest (few : fewer < most)
    (enough : (closest? round value (fewer + 1)).isSome = true) :
    ∃ earlier ≤ fewer, closest? round value (earlier + 1) = some (shortest round most value) := by
  let candidates : ℕ → Option Decimal := fun fewer => closest? round value (fewer + 1)
  have first : ((List.range (fewer + 1)).findSome? candidates).isSome = true :=
    List.findSome?_isSome_iff.mpr ⟨fewer, List.mem_range.mpr (Nat.lt_succ_self fewer), enough⟩
  obtain ⟨decimal, found⟩ := Option.isSome_iff_exists.mp first
  have all : (List.range most).findSome? candidates = some decimal := by
    obtain ⟨rest, rfl⟩ := Nat.exists_eq_add_of_le (Nat.succ_le_of_lt few)
    rw [List.range_add, List.findSome?_append, found, Option.some_or]
  have same : shortest round most value = decimal := congrArg (Option.getD · _) all
  obtain ⟨earlier, member, told⟩ := List.exists_of_findSome?_eq_some found
  exact ⟨earlier, Nat.le_of_lt_succ (List.mem_range.mp member), same ▸ told⟩

theorem around_shortest (positive : 0 < value) (fewer : ℕ) :
    Around value (fewer + 1) (shortest round (fewer + 1) value) := by
  cases found : (List.range (fewer + 1)).findSome?
      fun fewer => closest? round value (fewer + 1) with
  | none =>
      have same : shortest round (fewer + 1) value = below value (fewer + 1) :=
        congrArg (Option.getD · _) found
      rw [same]
      exact around_below positive fewer
  | some decimal =>
      have same : shortest round (fewer + 1) value = decimal := congrArg (Option.getD · _) found
      obtain ⟨earlier, member, told⟩ := List.exists_of_findSome?_eq_some found
      rw [same]
      exact (around_closest? positive told).mono (List.mem_range.mp member)

end Shortest

section Layout

variable {digits : List Char} {point : ℤ}

theorem length_integerText_le {value power : ℕ} (some : 1 ≤ power) (below : value < 10 ^ power) :
    (integerText value).length ≤ power := by
  unfold integerText
  split
  · exact some
  · rw [List.length_reverse, List.length_map]
    exact (Nat.digits_length_le_iff (by decide) _).mpr below

/-- The digits with a point after the first of them, or at their end. -/
theorem length_layout_of_pos (positive : 0 < point) (small : point ≤ 21) :
    (layout digits point).length ≤ max point.toNat (digits.length + 1) := by
  unfold layout
  split
  · simp only [List.length_append, List.length_replicate]
    omega
  · rw [if_pos ⟨positive, small⟩]
    simp only [List.length_append, List.length_cons, List.length_take, List.length_drop]
    omega

theorem length_layout_of_whole (whole : digits.length ≤ point) (small : point ≤ 21) :
    (layout digits point).length = point.toNat := by
  rw [layout, if_pos ⟨whole, small⟩]
  simp only [List.length_append, List.length_replicate]
  omega

/-- The digits after zeros. -/
theorem length_layout_of_fraction (low : -6 < point) (high : point ≤ 0) :
    (layout digits point).length ≤ digits.length + 2 + (-point).toNat := by
  unfold layout
  split
  · simp only [List.length_append, List.length_replicate]
    omega
  · rw [if_neg (by omega), if_pos ⟨low, high⟩]
    simp only [List.length_cons, List.length_append, List.length_replicate]
    omega

theorem length_layout_of_exponent (low : -998 ≤ point) (high : point ≤ -6) :
    (layout digits point).length ≤ digits.length + 6 := by
  have exponent := @length_integerText_le (point - 1).natAbs 3 (by decide) (by omega)
  unfold layout
  rw [if_neg (by omega), if_neg (by omega), if_neg (by omega)]
  simp only [List.length_append, List.length_take, List.length_cons]
  split <;> simp only [List.length_nil, List.length_cons, List.length_drop] <;> omega

theorem length_layout_le (low : -998 ≤ point) (high : point ≤ 6) :
    (layout digits point).length ≤ max 6 (digits.length + 7) := by
  rcases lt_or_ge 0 point with positive | nonpositive
  · exact (length_layout_of_pos positive (by omega)).trans (by omega)
  · rcases lt_or_ge (-6) point with fraction | exponent
    · exact (length_layout_of_fraction fraction nonpositive).trans (by omega)
    · exact (length_layout_of_exponent low exponent).trans (by omega)

end Layout

section Ascii

/-- Only characters of ASCII. -/
def Ascii (text : List Char) : Prop := ∀ char ∈ text, char.toNat < 0x80

theorem ascii_digitChar {digit : ℕ} (small : digit < 16) : (Nat.digitChar digit).toNat < 0x80 := by
  have all : ∀ digit : Fin 16, (Nat.digitChar digit).toNat < 0x80 := by decide
  exact all ⟨digit, small⟩

theorem Ascii.append {first second : List Char} (left : Ascii first) (right : Ascii second) :
    Ascii (first ++ second) := fun char member =>
  (List.mem_append.mp member).elim (left char) (right char)

theorem Ascii.cons {char : Char} {rest : List Char} (head : char.toNat < 0x80)
    (tail : Ascii rest) : Ascii (char :: rest) :=
  List.forall_mem_cons.mpr ⟨head, tail⟩

theorem ascii_nil : Ascii [] := fun _ member => by cases member

theorem Ascii.sublist {part whole : List Char} (ascii : Ascii whole) (sub : part.Sublist whole) :
    Ascii part := fun char member => ascii char (sub.subset member)

theorem ascii_digits {digits : List ℕ} (small : ∀ digit ∈ digits, digit < 10) :
    Ascii (digits.map Nat.digitChar).reverse := by
  intro char member
  obtain ⟨digit, listed, rfl⟩ := List.mem_map.mp (List.mem_reverse.mp member)
  exact ascii_digitChar ((small digit listed).trans (by decide))

theorem digits_lt_ten (value : ℕ) : ∀ digit ∈ Nat.digits 10 value, digit < 10 :=
  fun _ member => Nat.digits_lt_base (by decide) member

theorem ascii_integerText (value : ℕ) : Ascii (integerText value) := by
  unfold integerText
  split
  · exact .cons (by decide) ascii_nil
  · exact ascii_digits (digits_lt_ten value)

theorem ascii_zeros (count : ℕ) : Ascii (List.replicate count '0') := by
  intro char member
  rw [List.eq_of_mem_replicate member]
  decide

theorem ascii_layout {digits : List Char} (ascii : Ascii digits) (point : ℤ) :
    Ascii (layout digits point) := by
  unfold layout
  split
  · exact ascii.append (ascii_zeros _)
  · split
    · exact (ascii.sublist (List.take_sublist _ _)).append
        (.cons (by decide) (ascii.sublist (List.drop_sublist _ _)))
    · split
      · exact .cons (by decide) (.cons (by decide) ((ascii_zeros _).append ascii))
      · refine ((ascii.sublist (List.take_sublist _ _)).append ?_).append
          (.cons (by decide) (.cons (by split <;> decide) (ascii_integerText _)))
        split
        · exact ascii_nil
        · exact .cons (by decide) (ascii.sublist (List.drop_sublist _ _))

theorem Decimal.ascii_digits (decimal : Decimal) : Ascii decimal.digits :=
  DecimalText.ascii_digits fun digit member =>
    digits_lt_ten decimal.significand digit ((List.dropWhile_sublist _).subset member)

theorem ascii_numberText (round : ℚ → ℚ) (most : ℕ) (value : ℚ) :
    Ascii (numberText round most value) := by
  have magnitude := ascii_layout (shortest round most |value|).ascii_digits
    (shortest round most |value|).point
  unfold numberText
  split
  · exact .cons (by decide) ascii_nil
  · dsimp only
    split
    · exact .cons (by decide) magnitude
    · exact magnitude

end Ascii

end DjApp.Library.DecimalText
