import Mathlib.Tactic.IntervalCases
import DjApp.Library.AssocList
import DjApp.Library.DecimalLength
import DjApp.Protocol.Stringify

/-! How many bytes the texts of numbers and strings take. -/

set_option autoImplicit false

namespace DjApp.Json

open Library
open Library.BinaryRounding (binary64 double Representable representable_double)
open Library.DecimalText (Ascii Around layout pointOf shortest closest?)

theorem byteLength_of_ascii {text : List Char} (ascii : Ascii text) :
    byteLength text = text.length := by
  induction text with
  | nil => rfl
  | cons char rest ih =>
      obtain ⟨head, tail⟩ := List.forall_mem_cons.mp ascii
      rw [byteLength_cons, utf8Size_ascii head, ih tail, List.length_cons, Nat.add_comm]

section Numbers

variable {value : ℚ}

/-- The text of a positive double, or of a negative one without its sign. -/
def magnitudeText (value : ℚ) : List Char :=
  layout (shortest double maxDigits value).digits (shortest double maxDigits value).point

theorem byteLength_numberText (value : ℚ) :
    byteLength (numberText value) =
      if double value = 0 then 1
      else (magnitudeText |double value|).length + if double value < 0 then 1 else 0 := by
  rw [numberText, byteLength_of_ascii (DecimalText.ascii_numberText _ _ _), DecimalText.numberText]
  split
  · rfl
  · dsimp only
    split <;> rfl

theorem around_shortest (positive : 0 < value) :
    Around value maxDigits (shortest double maxDigits value) :=
  DecimalText.around_shortest positive 16

/-- The least positive double has its point after 323 zeros. -/
theorem pointOf_bounds (number : Representable binary64 value) (positive : 0 < value)
    (bounded : value ≤ 86400) : -323 ≤ pointOf value ∧ pointOf value ≤ 5 := by
  have least := number.least_le_abs positive.ne'
  rw [abs_of_pos positive] at least
  have reached : (10 : ℚ) ^ (-324 : ℤ) ≤ value := by
    refine le_trans ?_ least
    have powers : (2 : ℚ) ^ 1074 ≤ 10 ^ 324 := by
      calc (2 : ℚ) ^ 1074 = (2 ^ 65) ^ 11 * 2 ^ 35 * 2 ^ 324 := by rw [← pow_mul, ← pow_add, ← pow_add]
        _ ≤ (5 ^ 28) ^ 11 * 5 ^ 16 * 2 ^ 324 := by gcongr <;> norm_num
        _ = 10 ^ 324 := by rw [← pow_mul, ← pow_add, ← mul_pow]; norm_num
    calc (10 : ℚ) ^ (-324 : ℤ) = (10 ^ 324)⁻¹ := by rw [zpow_neg]; rfl
      _ ≤ (2 ^ 1074)⁻¹ := inv_anti₀ (by positivity) powers
      _ = 2 ^ (-1074 : ℤ) := by rw [zpow_neg]; rfl
  have above := DecimalText.lt_pointOf positive reached
  exact ⟨by omega, DecimalText.pointOf_le positive (bounded.trans_lt (by norm_num))⟩

theorem length_magnitudeText_le (number : Representable binary64 value) (positive : 0 < value)
    (bounded : value ≤ 86400) : (magnitudeText value).length ≤ 24 := by
  obtain ⟨low, high⟩ := pointOf_bounds number positive bounded
  obtain ⟨length, point⟩ := around_shortest positive
  have few : (shortest double maxDigits value).digits.length ≤ 17 := length
  exact (DecimalText.length_layout_le (by omega) (by omega)).trans (by omega)

theorem double_within {low high : ℚ} (lower : Representable binary64 low)
    (upper : Representable binary64 high) (within : low ≤ value ∧ value ≤ high) :
    low ≤ double value ∧ double value ≤ high :=
  ⟨BinaryRounding.representable_le_round_of_le binary64 (by decide) lower within.1,
    BinaryRounding.round_le_of_le_representable binary64 (by decide) upper within.2⟩

theorem representable_natCast {count : ℕ} (small : count ≤ 2 ^ 53) :
    Representable binary64 (count : ℚ) :=
  BinaryRounding.representable_natCast (by decide) small

theorem byteLength_numberText_le (within : 0 ≤ value ∧ value ≤ 86400) :
    byteLength (numberText value) ≤ 24 := by
  have bounds := double_within (@representable_natCast 0 (by norm_num))
    (@representable_natCast 86400 (by norm_num)) (by exact_mod_cast within)
  rw [byteLength_numberText]
  split
  · decide
  · rename_i nonzero
    have positive : 0 < double value :=
      lt_of_le_of_ne (by exact_mod_cast bounds.1) (Ne.symm nonzero)
    rw [if_neg (not_lt.mpr positive.le), abs_of_pos positive]
    exact length_magnitudeText_le (representable_double value) positive (by exact_mod_cast bounds.2)

/-- A number that may be negative. -/
theorem byteLength_numberText_le_of_abs (within : -86400 ≤ value ∧ value ≤ 86400) :
    byteLength (numberText value) ≤ 25 := by
  have upper := @representable_natCast 86400 (by norm_num)
  obtain ⟨low, high⟩ := double_within upper.neg upper (by exact_mod_cast within)
  rw [byteLength_numberText]
  split
  · decide
  · rename_i nonzero
    have magnitude : Representable binary64 |double value| := by
      rcases abs_choice (double value) with same | negated
      · rw [same]
        exact representable_double value
      · rw [negated]
        exact (representable_double value).neg
    have bounded : |double value| ≤ 86400 := abs_le.mpr (by exact_mod_cast And.intro low high)
    have short := length_magnitudeText_le magnitude (abs_pos.mpr nonzero) bounded
    split <;> omega

/-- Between a half and one, doubles lie further apart than decimals of sixteen digits. -/
theorem quantumExponent_of_half (low : 1 / 2 ≤ value) (high : value < 1) :
    BinaryRounding.quantumExponent binary64 value = -53 := by
  have positive : 0 < value := lt_of_lt_of_le (by norm_num) low
  have reached : ((2 : ℕ) : ℚ) ^ (-1 : ℤ) ≤ |value| := by
    rw [abs_of_pos positive]
    norm_num at low ⊢
    exact low
  have below : |value| < ((2 : ℕ) : ℚ) ^ (0 : ℤ) := by
    rw [abs_of_pos positive]
    simpa using high
  have least := (Int.zpow_le_iff_le_log (by decide) (abs_pos.mpr positive.ne')).mp reached
  have most := (Int.lt_zpow_iff_log_lt (by decide) (abs_pos.mpr positive.ne')).mp below
  have log : Int.log 2 |value| = -1 := by omega
  rw [BinaryRounding.quantumExponent, log]
  decide

theorem pointOf_of_half (low : 1 / 2 ≤ value) (high : value < 1) : pointOf value = 0 := by
  have positive : 0 < value := lt_of_lt_of_le (by norm_num) low
  have above : -1 < pointOf value :=
    DecimalText.lt_pointOf positive (le_trans (by norm_num) low)
  have below : pointOf value ≤ 0 := DecimalText.pointOf_le positive (by simpa using high)
  omega

theorem closest?_sixteen (number : Representable binary64 value) (low : 1 / 2 ≤ value)
    (high : value < 1) : (closest? double value 16).isSome = true := by
  rcases eq_or_lt_of_le low with rfl | above
  · decide +kernel
  · let multiple := BinaryRounding.roundHalfEven (value / 2 ^ (-53 : ℤ))
    have same : value = multiple * 2 ^ (-53 : ℤ) := by
      have fixed := number.round_eq (by decide)
      rw [BinaryRounding.round, quantumExponent_of_half low high] at fixed
      exact fixed.symm
    have unit : (2 : ℚ) ^ (-53 : ℤ) = 1 / 9007199254740992 := by norm_num
    rw [unit] at same
    have bounds : 4503599627370496 < multiple ∧ multiple < 9007199254740992 := by
      constructor
      · exact_mod_cast (by linarith : (4503599627370496 : ℚ) < multiple)
      · exact_mod_cast (by linarith : (multiple : ℚ) < 9007199254740992)
    have least : (4503599627370497 : ℚ) ≤ multiple := by exact_mod_cast bounds.1
    have most : (multiple : ℚ) ≤ 9007199254740991 := by
      exact_mod_cast Int.le_sub_one_of_lt bounds.2
    refine DecimalText.closest?_isSome (by linarith) fun other near => ?_
    rw [pointOf_of_half low high] at near
    norm_num at near
    obtain ⟨below, beyond⟩ := abs_le.mp near
    have spacing := @quantumExponent_of_half other (by linarith) (by linarith)
    rw [same, ← unit]
    apply BinaryRounding.round_of_near spacing
    rw [unit, ← same]
    exact near.trans_lt (by norm_num)

/-- A number between a half and two needs one character less. -/
theorem byteLength_numberText_rate (within : 1 / 2 ≤ value ∧ value ≤ 2) :
    byteLength (numberText value) ≤ 18 := by
  have half : Representable binary64 (1 / 2) := ⟨1, -1, by decide, by decide, by norm_num⟩
  obtain ⟨low, high⟩ := double_within half (@representable_natCast 2 (by norm_num))
    (by exact_mod_cast within)
  have positive : 0 < double value := lt_of_lt_of_le (by norm_num) low
  rw [byteLength_numberText, if_neg positive.ne', if_neg (not_lt.mpr positive.le),
    abs_of_pos positive, Nat.add_zero, magnitudeText]
  rcases lt_or_ge (double value) 1 with small | large
  · have number := representable_double value
    obtain ⟨earlier, few, found⟩ := DecimalText.closest?_shortest
      (show 15 < maxDigits by decide) (closest?_sixteen number low small)
    obtain ⟨length, point⟩ := DecimalText.around_closest? positive found
    rw [pointOf_of_half low small] at point
    rcases point with point | ⟨point, one, _⟩
    · rw [point]
      exact (DecimalText.length_layout_of_fraction (by decide) le_rfl).trans (by omega)
    · rw [point]
      exact (DecimalText.length_layout_of_pos (by decide) (by decide)).trans (by omega)
  · have point : pointOf (double value) = 1 := by
      have above : 0 < pointOf (double value) :=
        DecimalText.lt_pointOf positive (by simpa using large)
      have below : pointOf (double value) ≤ 1 :=
        DecimalText.pointOf_le positive (lt_of_le_of_lt high (by norm_num))
      omega
    obtain ⟨length, place⟩ := around_shortest positive
    have few : (shortest double maxDigits (double value)).digits.length ≤ 17 := length
    rw [point] at place
    rcases place with place | ⟨place, one, _⟩ <;> rw [place]
    · exact (DecimalText.length_layout_of_pos (by decide) (by decide)).trans (by omega)
    · exact (DecimalText.length_layout_of_pos (by decide) (by decide)).trans (by omega)

theorem byteLength_numberText_count {count : ℕ} (small : count ≤ 2 ^ 53) :
    byteLength (numberText count) ≤ 16 := by
  have same : double (count : ℚ) = count := (representable_natCast small).round_eq (by decide)
  rw [byteLength_numberText, same]
  split
  · decide
  · rename_i nonzero
    have positive : (0 : ℚ) < count := lt_of_le_of_ne (Nat.cast_nonneg count) (Ne.symm nonzero)
    have most : (count : ℚ) ≤ 9007199254740992 := by exact_mod_cast small
    have above : 0 < pointOf (count : ℚ) :=
      DecimalText.lt_pointOf positive (by simpa using Nat.one_le_iff_ne_zero.mpr (by simpa using nonzero))
    have below : pointOf (count : ℚ) ≤ 16 :=
      DecimalText.pointOf_le positive (most.trans_lt (by norm_num))
    obtain ⟨fewer, point⟩ := Int.eq_ofNat_of_zero_le (Int.sub_nonneg_of_le above)
    have wholes : pointOf (count : ℚ) = fewer + 1 := by omega
    obtain ⟨earlier, few, found⟩ := DecimalText.closest?_shortest
      (show fewer < maxDigits by unfold maxDigits; omega) (DecimalText.closest?_natCast wholes same)
    obtain ⟨length, place⟩ := DecimalText.around_closest? positive found
    rw [if_neg (not_lt.mpr positive.le), abs_of_pos positive, Nat.add_zero, magnitudeText]
    rcases place with place | ⟨place, one, value⟩
    · rw [DecimalText.length_layout_of_whole (by omega) (by omega)]
      omega
    · rw [DecimalText.length_layout_of_whole (by omega) (by omega)]
      rcases lt_or_eq_of_le below with shorter | last
      · omega
      · have power : Representable binary64 ((10 : ℚ) ^ (16 : ℤ)) :=
          ⟨5 ^ 16, 16, by decide, by decide, by norm_num⟩
        have told := (DecimalText.closest?_some found).1
        rw [value, last, double, power.round_eq (by decide)] at told
        norm_num at told
        linarith

end Numbers

section Strings

theorem byteLength_quoteCodePoint_digit {digit : ℕ} (small : digit < 16) :
    byteLength (quoteCodePoint (Nat.digitChar digit).toNat) = 1 := by
  have plain : ∀ digit : Fin 16, isPlain (Nat.digitChar digit) = true := by decide
  exact byteLength_quoteCodePoint_toNat (plain ⟨digit, small⟩)

theorem utf8Size_toChar_le {codePoint : ℕ} (basic : codePoint < 0x10000) :
    (Utf16.toChar codePoint).utf8Size ≤ 3 := by
  have small : (Utf16.toChar codePoint).val ≤ 0xFFFF := by
    rw [UInt32.le_iff_toNat_le]
    by_cases valid : codePoint.isValidChar
    · exact (Utf16.toNat_toChar codePoint valid).trans_le (Nat.le_of_lt_succ basic)
    · rw [Utf16.toChar, if_neg valid]
      decide
  have short : (Utf16.toChar codePoint).utf8Size ≠ 4 := fun four =>
    absurd (Char.utf8Size_eq_four_iff.mp four) (UInt32.not_lt.mpr small)
  have most := (Utf16.toChar codePoint).utf8Size_le_four
  omega

/-- No more than three bytes for a unit, unless it has to be escaped by its number. -/
theorem byteLength_quoteCodePoint_le {codePoint : ℕ} (printable : 0x20 ≤ codePoint)
    (scalar : Utf16.isSurrogate codePoint = false) :
    byteLength (quoteCodePoint codePoint) ≤ if codePoint < 0x10000 then 3 else 4 := by
  unfold quoteCodePoint
  split
  · rename_i letter found
    have letters : ∀ escape ∈ shortEscapes, escape.2.utf8Size = 1 := by decide
    have slash : backslash.utf8Size = 1 := by decide
    have one := letters _ (AssocList.mem_of_lookup found)
    rw [byteLength_cons, byteLength_cons, byteLength_nil, slash, one]
    split <;> omega
  · rw [if_neg (by simp [scalar, printable])]
    rw [byteLength_cons, byteLength_nil, Nat.add_zero]
    split
    · exact utf8Size_toChar_le ‹_›
    · exact Char.utf8Size_le_four _

theorem byteLength_quote_le {units : JsString}
    (printable : ∀ codePoint ∈ Utf16.codePoints units, 0x20 ≤ codePoint)
    (wellFormed : Utf16.isWellFormed units = true) :
    byteLength (quote units) ≤ 3 * units.length + 2 := by
  rw [byteLength_quote]
  refine Nat.add_le_add_right ?_ 2
  have scalar : ∀ codePoint ∈ Utf16.codePoints units, Utf16.isSurrogate codePoint = false := by
    simpa [Utf16.isWellFormed] using wellFormed
  clear wellFormed
  induction units using Utf16.codePoints.induct with
  | case1 => simp [Utf16.codePoints]
  | case2 unit =>
      simp only [Utf16.codePoints, List.mem_singleton, forall_eq] at printable scalar
      have size := byteLength_quoteCodePoint_le printable scalar
      rw [if_pos unit.toNat_lt] at size
      simpa [Utf16.codePoints] using size
  | case3 first second rest pair ih =>
      simp only [Utf16.codePoints, pair, ↓reduceIte, List.forall_mem_cons] at printable scalar
      have size := byteLength_quoteCodePoint_le printable.1 scalar.1
      have others := ih printable.2 scalar.2
      simp only [Utf16.codePoints, pair, ↓reduceIte, List.map_cons, List.sum_cons, List.length_cons]
      split at size <;> omega
  | case4 first second rest pair ih =>
      simp only [Utf16.codePoints, pair, Bool.false_eq_true, ↓reduceIte, List.forall_mem_cons]
        at printable scalar
      have size := byteLength_quoteCodePoint_le printable.1 scalar.1
      have others := ih printable.2 scalar.2
      rw [if_pos first.toNat_lt] at size
      simp only [Utf16.codePoints, pair, Bool.false_eq_true, ↓reduceIte, List.map_cons,
        List.sum_cons, List.length_cons] at others ⊢
      omega

/-- A string of letters takes a byte for each. -/
theorem byteLength_quote_plain {units : JsString}
    (plain : ∀ unit ∈ units, 0x20 ≤ unit.toNat ∧ unit.toNat < 0x7F ∧ unit.toNat ≠ 0x22 ∧
      unit.toNat ≠ 0x5C) : byteLength (quote units) = units.length + 2 := by
  have single : ∀ unit ∈ units, Utf16.isHighSurrogate unit = false := by
    intro unit member
    have high := (plain unit member).2.1
    rw [Bool.eq_false_iff, ne_eq, Utf16.isHighSurrogate_iff]
    omega
  rw [byteLength_quote, Utf16.codePoints_eq_map single, List.map_map]
  apply congrArg (· + 2)
  have ones : ∀ unit ∈ units,
      ((fun codePoint => byteLength (quoteCodePoint codePoint)) ∘ UInt16.toNat) unit = 1 := by
    intro unit member
    obtain ⟨low, high, quoteMark, escape⟩ := plain unit member
    exact byteLength_quoteCodePoint_plain low high quoteMark escape
  rw [List.map_congr_left ones]
  simp

end Strings

end DjApp.Json
