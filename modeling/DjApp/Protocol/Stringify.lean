import DjApp.Library.BinaryRounding
import DjApp.Library.DecimalText
import DjApp.Protocol.Json

/-! The text that `JSON.stringify` makes of a value, and its length in UTF-8. -/

set_option autoImplicit false

namespace DjApp

open Library
open Library.BinaryRounding (double)

namespace Json

def doubleQuote : Char := Char.ofNat 0x22

def backslash : Char := Char.ofNat 0x5C

def hexDigits (codePoint : ℕ) : List Char :=
  [Nat.digitChar (codePoint / 0x1000 % 0x10), Nat.digitChar (codePoint / 0x100 % 0x10),
    Nat.digitChar (codePoint / 0x10 % 0x10), Nat.digitChar (codePoint % 0x10)]

/-- The escapes of one letter. -/
def shortEscapes : List (ℕ × Char) :=
  [(0x08, 'b'), (0x09, 't'), (0x0A, 'n'), (0x0C, 'f'), (0x0D, 'r'), (0x22, doubleQuote),
    (0x5C, backslash)]

/-- Only a surrogate without its partner is left as a code point of its own. -/
def quoteCodePoint (codePoint : ℕ) : List Char :=
  match shortEscapes.lookup codePoint with
  | some letter => [backslash, letter]
  | none =>
      if codePoint < 0x20 ∨ Utf16.isSurrogate codePoint then
        backslash :: 'u' :: hexDigits codePoint
      else [Utf16.toChar codePoint]

def quote (units : JsString) : List Char :=
  doubleQuote :: ((Utf16.codePoints units).flatMap quoteCodePoint ++ [doubleQuote])

def maxDigits : ℕ := 17

/-- A number of the program is a double. -/
def numberText (value : ℚ) : List Char :=
  DecimalText.numberText double maxDigits (double value)

def commaSeparated (texts : List (List Char)) : List Char := List.intercalate [','] texts

mutual

def stringify : JsValue → List Char
  | .null => "null".toList
  | .bool value => (if value then "true" else "false").toList
  | .num (.finite value) => numberText value
  | .num _ => "null".toList
  | .str units => quote units
  | .arr items => '[' :: (commaSeparated (itemTexts items) ++ [']'])
  | .obj fields => Char.ofNat 0x7B :: (commaSeparated (fieldTexts fields) ++ [Char.ofNat 0x7D])

def itemTexts : List JsValue → List (List Char)
  | [] => []
  | item :: rest => stringify item :: itemTexts rest

def fieldTexts : List (JsString × JsValue) → List (List Char)
  | [] => []
  | (key, value) :: rest => (quote key ++ ':' :: stringify value) :: fieldTexts rest

end

/-- The length of a text in UTF-8. -/
def byteLength (text : List Char) : ℕ := (text.map Char.utf8Size).sum

@[simp] theorem byteLength_nil : byteLength [] = 0 := rfl

@[simp] theorem byteLength_cons (char : Char) (rest : List Char) :
    byteLength (char :: rest) = char.utf8Size + byteLength rest := by
  simp [byteLength]

@[simp] theorem byteLength_append (first second : List Char) :
    byteLength (first ++ second) = byteLength first + byteLength second := by
  simp [byteLength]

theorem utf8Size_ascii {char : Char} (ascii : char.toNat < 0x80) : char.utf8Size = 1 := by
  have small : char.val ≤ 0x7F := by
    rw [UInt32.le_iff_toNat_le]
    exact Nat.le_of_lt_succ ascii
  simp [Char.utf8Size, small]

/-- A comma stands between any two texts. -/
theorem byteLength_commaSeparated {texts : List (List Char)} (some : texts ≠ []) :
    byteLength (commaSeparated texts) + 1 = (texts.map fun text => byteLength text + 1).sum := by
  induction texts with
  | nil => exact absurd rfl some
  | cons first rest ih =>
      cases rest with
      | nil => simp [commaSeparated]
      | cons second rest =>
          have shape : commaSeparated (first :: second :: rest) =
              first ++ ',' :: commaSeparated (second :: rest) := by
            simp [commaSeparated]
          have comma : Char.utf8Size ',' = 1 := by decide
          have later := ih (by simp)
          rw [shape, byteLength_append, byteLength_cons, comma, List.map_cons, List.sum_cons]
          omega

theorem itemTexts_eq_map (items : List JsValue) : itemTexts items = items.map stringify := by
  induction items with
  | nil => rw [itemTexts, List.map_nil]
  | cons item rest ih => rw [itemTexts, ih, List.map_cons]

theorem fieldTexts_eq_map (fields : List (JsString × JsValue)) :
    fieldTexts fields = fields.map fun field => quote field.1 ++ ':' :: stringify field.2 := by
  induction fields with
  | nil => rw [fieldTexts, List.map_nil]
  | cons field rest ih => rw [fieldTexts, ih, List.map_cons]

theorem byteLength_quote (units : JsString) :
    byteLength (quote units) =
      ((Utf16.codePoints units).map fun codePoint => byteLength (quoteCodePoint codePoint)).sum + 2 := by
  have quoteMark : doubleQuote.utf8Size = 1 := by decide
  have body (codePoints : List ℕ) : byteLength (codePoints.flatMap quoteCodePoint) =
      (codePoints.map fun codePoint => byteLength (quoteCodePoint codePoint)).sum := by
    induction codePoints with
    | nil => rfl
    | cons codePoint rest ih => simp [ih]
  rw [quote, byteLength_cons, byteLength_append, body, byteLength_cons, byteLength_nil, quoteMark]
  omega

/-- Whether a character stands as it is in a quoted text, in one byte. -/
def isPlain (char : Char) : Bool :=
  0x20 ≤ char.toNat && char.toNat < 0x7F && char != doubleQuote && char != backslash

theorem quoteCodePoint_plain {codePoint : ℕ} (low : 0x20 ≤ codePoint) (high : codePoint < 0x7F)
    (quoteMark : codePoint ≠ 0x22) (escape : codePoint ≠ 0x5C) :
    quoteCodePoint codePoint = [Utf16.toChar codePoint] := by
  have short : shortEscapes.lookup codePoint = none := by
    simp only [shortEscapes, List.lookup_cons, List.lookup_nil]
    repeat rw [beq_eq_false_iff_ne.mpr (by omega)]
  have scalar : Utf16.isSurrogate codePoint = false := by
    rw [Bool.eq_false_iff, ne_eq, Utf16.isSurrogate_iff]
    omega
  rw [quoteCodePoint, short]
  simp only [scalar, Bool.false_eq_true, or_false, if_neg (not_lt.mpr low)]

theorem byteLength_quoteCodePoint_plain {codePoint : ℕ} (low : 0x20 ≤ codePoint)
    (high : codePoint < 0x7F) (quoteMark : codePoint ≠ 0x22) (escape : codePoint ≠ 0x5C) :
    byteLength (quoteCodePoint codePoint) = 1 := by
  have valid : codePoint.isValidChar := Or.inl (by omega)
  rw [quoteCodePoint_plain low high quoteMark escape, byteLength_cons, byteLength_nil, Nat.add_zero]
  apply utf8Size_ascii
  rw [Utf16.toNat_toChar codePoint valid]
  omega

theorem byteLength_quoteCodePoint_toNat {char : Char} (plain : isPlain char = true) :
    byteLength (quoteCodePoint char.toNat) = 1 := by
  simp only [isPlain, Bool.and_eq_true, decide_eq_true_eq, bne_iff_ne] at plain
  obtain ⟨⟨⟨low, high⟩, quoteMark⟩, escape⟩ := plain
  refine byteLength_quoteCodePoint_plain low high ?_ ?_
  · exact fun same => quoteMark (Char.toNat_inj.mp same)
  · exact fun same => escape (Char.toNat_inj.mp same)

theorem byteLength_quote_js (text : String) :
    byteLength (quote (js text)) =
      (text.toList.map fun char => byteLength (quoteCodePoint char.toNat)).sum + 2 := by
  rw [byteLength_quote, js, Utf16.codePoints_encode, List.map_map]
  rfl

/-- A text of plain characters takes a byte for each. -/
theorem byteLength_quote_letters {text : String} (plain : text.toList.all isPlain = true) :
    byteLength (quote (js text)) = text.length + 2 := by
  rw [byteLength_quote_js, ← String.length_toList]
  apply congrArg (· + 2)
  have ones : ∀ char ∈ text.toList, byteLength (quoteCodePoint char.toNat) = 1 := by
    intro char member
    exact byteLength_quoteCodePoint_toNat (List.all_eq_true.mp plain char member)
  rw [List.map_congr_left ones]
  simp

theorem byteLength_arr {items : List JsValue} (some : items ≠ []) :
    byteLength (stringify (.arr items)) =
      1 + (items.map fun item => byteLength (stringify item) + 1).sum := by
  have brackets : Char.utf8Size '[' = 1 ∧ Char.utf8Size ']' = 1 := by decide
  have separated := @byteLength_commaSeparated (itemTexts items) (by
    rw [itemTexts_eq_map]
    simpa using some)
  rw [itemTexts_eq_map, List.map_map] at separated
  rw [stringify, itemTexts_eq_map, byteLength_cons, byteLength_append, byteLength_cons,
    byteLength_nil, brackets.1, brackets.2]
  change _ = (items.map fun item => byteLength (stringify item) + 1).sum at separated
  omega

/-- Each field takes its key, a colon, its value and a comma or the closing brace. -/
theorem byteLength_obj {fields : List (JsString × JsValue)} (some : fields ≠ []) :
    byteLength (stringify (.obj fields)) =
      1 + (fields.map fun field =>
        byteLength (quote field.1) + byteLength (stringify field.2) + 2).sum := by
  have braces : (Char.ofNat 0x7B).utf8Size = 1 ∧ (Char.ofNat 0x7D).utf8Size = 1 := by decide
  have colon : Char.utf8Size ':' = 1 := by decide
  have separated := @byteLength_commaSeparated (fieldTexts fields) (by
    rw [fieldTexts_eq_map]
    simpa using some)
  have size : ∀ field : JsString × JsValue,
      byteLength (quote field.1 ++ ':' :: stringify field.2) + 1 =
        byteLength (quote field.1) + byteLength (stringify field.2) + 2 := by
    intro field
    rw [byteLength_append, byteLength_cons, colon]
    omega
  rw [fieldTexts_eq_map, List.map_map] at separated
  simp only [Function.comp_def, size] at separated
  rw [stringify, fieldTexts_eq_map, byteLength_cons, byteLength_append, byteLength_cons,
    byteLength_nil, braces.1, braces.2]
  omega

end Json

end DjApp
