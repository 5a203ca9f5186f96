import Mathlib.Data.List.Basic
import Mathlib.Tactic.Common

/-! UTF-16 code-unit strings. A surrogate pair is one code point; a surrogate
outside a pair is a code point of its own, which no character has. -/

set_option autoImplicit false

namespace DjApp.Library.Utf16

def encodeChar (char : Char) : List UInt16 :=
  if char.toNat < 0x10000 then [UInt16.ofNat char.toNat]
  else [UInt16.ofNat (0xD800 + (char.toNat - 0x10000) / 0x400),
    UInt16.ofNat (0xDC00 + (char.toNat - 0x10000) % 0x400)]

def encode (text : List Char) : List UInt16 := text.flatMap encodeChar

def isHighSurrogate (unit : UInt16) : Bool := 0xD800 ≤ unit.toNat && unit.toNat < 0xDC00

def isLowSurrogate (unit : UInt16) : Bool := 0xDC00 ≤ unit.toNat && unit.toNat < 0xE000

def pairCodePoint (high low : UInt16) : Nat :=
  0x10000 + (high.toNat - 0xD800) * 0x400 + (low.toNat - 0xDC00)

def codePoints : List UInt16 → List Nat
  | [] => []
  | [unit] => [unit.toNat]
  | first :: second :: rest =>
      if isHighSurrogate first && isLowSurrogate second then
        pairCodePoint first second :: codePoints rest
      else first.toNat :: codePoints (second :: rest)

def isSurrogate (codePoint : Nat) : Bool := 0xD800 ≤ codePoint && codePoint < 0xE000

/-- No surrogate stands outside a pair. -/
def isWellFormed (units : List UInt16) : Bool :=
  (codePoints units).all fun codePoint => !isSurrogate codePoint

/-- A code point without a character decodes to U+FFFD, as it does in UTF-8 output. -/
def toChar (codePoint : Nat) : Char :=
  if codePoint.isValidChar then Char.ofNat codePoint else '\uFFFD'

def decode (units : List UInt16) : List Char := (codePoints units).map toChar

@[simp] theorem toChar_toNat (char : Char) : toChar char.toNat = char := by
  have valid : char.toNat.isValidChar := char.valid
  rw [toChar, if_pos valid, Char.ofNat_toNat]

theorem isHighSurrogate_iff (unit : UInt16) :
    isHighSurrogate unit = true ↔ 0xD800 ≤ unit.toNat ∧ unit.toNat < 0xDC00 := by
  rw [isHighSurrogate, Bool.and_eq_true, decide_eq_true_iff, decide_eq_true_iff]

theorem isLowSurrogate_iff (unit : UInt16) :
    isLowSurrogate unit = true ↔ 0xDC00 ≤ unit.toNat ∧ unit.toNat < 0xE000 := by
  rw [isLowSurrogate, Bool.and_eq_true, decide_eq_true_iff, decide_eq_true_iff]

theorem isSurrogate_iff (codePoint : Nat) :
    isSurrogate codePoint = true ↔ 0xD800 ≤ codePoint ∧ codePoint < 0xE000 := by
  rw [isSurrogate, Bool.and_eq_true, decide_eq_true_iff, decide_eq_true_iff]

private theorem toNat_lt (char : Char) : char.toNat < 0x110000 := by
  rcases char.valid with small | ⟨_, large⟩
  · exact Nat.lt_trans small (by decide)
  · exact large

private theorem toNat_not_surrogate (char : Char) :
    char.toNat < 0xD800 ∨ 0xDFFF < char.toNat := by
  rcases char.valid with small | ⟨large, _⟩
  · exact .inl small
  · exact .inr large

private theorem codePoints_single_append (unit : UInt16) (rest : List UInt16)
    (plain : isHighSurrogate unit = false) :
    codePoints (unit :: rest) = unit.toNat :: codePoints rest := by
  cases rest with
  | nil => simp [codePoints]
  | cons next rest => simp [codePoints, plain]

private theorem codePoints_pair_append (high low : UInt16) (rest : List UInt16)
    (isHigh : isHighSurrogate high = true) (isLow : isLowSurrogate low = true) :
    codePoints (high :: low :: rest) = pairCodePoint high low :: codePoints rest := by
  simp [codePoints, isHigh, isLow]

theorem codePoints_encodeChar_append (char : Char) (rest : List UInt16) :
    codePoints (encodeChar char ++ rest) = char.toNat :: codePoints rest := by
  have bound := toNat_lt char
  have scalar := toNat_not_surrogate char
  by_cases small : char.toNat < 0x10000
  · have value : (UInt16.ofNat char.toNat).toNat = char.toNat := by
      simp only [UInt16.toNat_ofNat']
      omega
    have plain : isHighSurrogate (UInt16.ofNat char.toNat) = false := by
      rw [Bool.eq_false_iff, ne_eq, isHighSurrogate_iff, value]
      omega
    simp only [encodeChar, small, ↓reduceIte, List.cons_append, List.nil_append]
    rw [codePoints_single_append _ _ plain, value]
  · have highValue : (UInt16.ofNat (0xD800 + (char.toNat - 0x10000) / 0x400)).toNat =
        0xD800 + (char.toNat - 0x10000) / 0x400 := by
      simp only [UInt16.toNat_ofNat']
      omega
    have lowValue : (UInt16.ofNat (0xDC00 + (char.toNat - 0x10000) % 0x400)).toNat =
        0xDC00 + (char.toNat - 0x10000) % 0x400 := by
      simp only [UInt16.toNat_ofNat']
      omega
    have pairValue : pairCodePoint (UInt16.ofNat (0xD800 + (char.toNat - 0x10000) / 0x400))
        (UInt16.ofNat (0xDC00 + (char.toNat - 0x10000) % 0x400)) = char.toNat := by
      unfold pairCodePoint
      omega
    simp only [encodeChar, small, ↓reduceIte, List.cons_append, List.nil_append]
    rw [codePoints_pair_append, pairValue]
    · rw [isHighSurrogate_iff, highValue]
      omega
    · rw [isLowSurrogate_iff, lowValue]
      omega

@[simp] theorem codePoints_encode (text : List Char) :
    codePoints (encode text) = text.map Char.toNat := by
  induction text with
  | nil => rfl
  | cons char rest ih =>
      simp only [encode, List.flatMap_cons, List.map_cons] at ih ⊢
      rw [codePoints_encodeChar_append, ih]

@[simp] theorem decode_encode (text : List Char) : decode (encode text) = text := by
  simp [decode, Function.comp_def]

theorem encode_injective : Function.Injective encode :=
  Function.LeftInverse.injective decode_encode

theorem length_codePoints_le (units : List UInt16) :
    (codePoints units).length ≤ units.length := by
  induction units using codePoints.induct with
  | case1 => simp [codePoints]
  | case2 unit => simp [codePoints]
  | case3 first second rest pair ih => simp [codePoints, pair]; omega
  | case4 first second rest pair ih =>
      simp only [codePoints, pair, Bool.false_eq_true, ↓reduceIte, List.length_cons] at ih ⊢
      omega

theorem codePoints_eq_nil_iff (units : List UInt16) : codePoints units = [] ↔ units = [] := by
  cases units using codePoints.fun_cases_unfolding with
  | case1 => simp
  | case2 unit => simp
  | case3 first second rest pair => simp
  | case4 first second rest pair => simp

@[simp] theorem length_decode (units : List UInt16) :
    (decode units).length = (codePoints units).length := by
  simp [decode]

theorem toNat_toChar (codePoint : Nat) (valid : codePoint.isValidChar) :
    (toChar codePoint).toNat = codePoint := by
  rw [toChar, if_pos valid, Char.ofNat, dif_pos valid]
  rfl

private theorem pairCodePoint_lt {high low : UInt16} (isHigh : isHighSurrogate high = true)
    (isLow : isLowSurrogate low = true) : pairCodePoint high low < 0x110000 := by
  rw [isHighSurrogate_iff] at isHigh
  rw [isLowSurrogate_iff] at isLow
  unfold pairCodePoint
  omega

theorem codePoint_lt (units : List UInt16) :
    ∀ codePoint ∈ codePoints units, codePoint < 0x110000 := by
  induction units using codePoints.induct with
  | case1 => simp [codePoints]
  | case2 unit =>
      have := unit.toNat_lt
      simp only [codePoints, List.mem_singleton, forall_eq]
      omega
  | case3 first second rest pair ih =>
      obtain ⟨isHigh, isLow⟩ := Bool.and_eq_true_iff.mp pair
      simp only [codePoints, pair, ↓reduceIte, List.mem_cons, forall_eq_or_imp]
      exact ⟨pairCodePoint_lt isHigh isLow, ih⟩
  | case4 first second rest pair ih =>
      have := first.toNat_lt
      simp only [codePoints, pair, Bool.false_eq_true, ↓reduceIte, List.mem_cons,
        forall_eq_or_imp] at ih ⊢
      exact ⟨by omega, ih⟩

/-- Every code point of a well-formed string is the scalar value of its character. -/
theorem decode_toNat_of_wellFormed (units : List UInt16) (wellFormed : isWellFormed units = true) :
    (decode units).map Char.toNat = codePoints units := by
  simp only [decode, List.map_map]
  conv_rhs => rw [← List.map_id (codePoints units)]
  apply List.map_congr_left
  intro codePoint member
  have bound := codePoint_lt units codePoint member
  have scalar := List.all_eq_true.mp wellFormed codePoint member
  apply toNat_toChar codePoint
  rw [Bool.not_eq_true', Bool.eq_false_iff, ne_eq, isSurrogate_iff] at scalar
  unfold Nat.isValidChar
  omega

/-- Without high surrogates every unit is a code point. -/
theorem codePoints_eq_map {units : List UInt16}
    (plain : ∀ unit ∈ units, isHighSurrogate unit = false) :
    codePoints units = units.map UInt16.toNat := by
  induction units with
  | nil => rfl
  | cons unit rest ih =>
      obtain ⟨first, others⟩ := List.forall_mem_cons.mp plain
      rw [codePoints_single_append unit rest first, ih others, List.map_cons]

end DjApp.Library.Utf16
