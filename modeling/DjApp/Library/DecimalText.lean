import Mathlib.Data.Int.Log
import Mathlib.Data.Nat.Digits.Defs
import Mathlib.Data.Rat.Floor

/-! The shortest decimal that rounds to a given value, and the text of a decimal in the
layout of `Number.prototype.toString`. -/

set_option autoImplicit false

namespace DjApp.Library.DecimalText

/-- `significand * 10 ^ exponent`. -/
structure Decimal where
  significand : ℕ
  exponent : ℤ
  deriving DecidableEq

def Decimal.value (decimal : Decimal) : ℚ := decimal.significand * 10 ^ decimal.exponent

/-- The position of the decimal point, counted from the first digit of a positive value. -/
def pointOf (value : ℚ) : ℤ := Int.log 10 value + 1

/-- The decimal of so many digits at or below a positive value. -/
def below (value : ℚ) (digits : ℕ) : Decimal :=
  ⟨⌊value / 10 ^ (pointOf value - digits)⌋₊, pointOf value - digits⟩

/-- The next decimal of the same spacing. -/
def above (value : ℚ) (digits : ℕ) : Decimal :=
  ⟨(below value digits).significand + 1, (below value digits).exponent⟩

/-- Of the decimals of so many digits around a value, the closest that rounds to it. -/
def closest? (round : ℚ → ℚ) (value : ℚ) (digits : ℕ) : Option Decimal :=
  let low := below value digits
  let high := above value digits
  if round low.value = value then
    if round high.value = value ∧ high.value - value < value - low.value then some high
    else some low
  else if round high.value = value then some high
  else none

/-- As few digits as tell a positive value from its neighbours, up to so many. -/
def shortest (round : ℚ → ℚ) (most : ℕ) (value : ℚ) : Decimal :=
  ((List.range most).findSome? fun fewer => closest? round value (fewer + 1)).getD
    (below value most)

/-- The digits of a decimal from the first on, without the zeros at the end. -/
def Decimal.digits (decimal : Decimal) : List Char :=
  (((Nat.digits 10 decimal.significand).dropWhile (· = 0)).map Nat.digitChar).reverse

/-- Where the point stands among the digits. -/
def Decimal.point (decimal : Decimal) : ℤ :=
  (Nat.digits 10 decimal.significand).length + decimal.exponent

def integerText (value : ℕ) : List Char :=
  if value = 0 then ['0'] else ((Nat.digits 10 value).map Nat.digitChar).reverse

/-- The text of digits with a point, by the four layouts of `toString`. -/
def layout (digits : List Char) (point : ℤ) : List Char :=
  if digits.length ≤ point ∧ point ≤ 21 then
    digits ++ List.replicate (point.toNat - digits.length) '0'
  else if 0 < point ∧ point ≤ 21 then
    digits.take point.toNat ++ '.' :: digits.drop point.toNat
  else if -6 < point ∧ point ≤ 0 then
    '0' :: '.' :: (List.replicate (-point).toNat '0' ++ digits)
  else
    digits.take 1 ++ (if digits.length ≤ 1 then [] else '.' :: digits.drop 1) ++
      'e' :: (if point ≤ 0 then '-' else '+') :: integerText (point - 1).natAbs

/-- `toString` of a finite number. -/
def numberText (round : ℚ → ℚ) (most : ℕ) (value : ℚ) : List Char :=
  if value = 0 then ['0']
  else
    let decimal := shortest round most |value|
    let magnitude := layout decimal.digits decimal.point
    if value < 0 then '-' :: magnitude else magnitude

end DjApp.Library.DecimalText
