/-
# Decimal numbers

A decimal number is a whole coefficient times a power of ten, with a sign. Here are its digits, its written
forms, and the double nearest to it.

* `Decimal.strip` : the same value without trailing zeros in the coefficient
* `Decimal.render` : the written form in a style that says where positional notation ends
* `Decimal.toFloat` : the nearest double
-/

namespace Leftover

/-- A power of ten. -/
def tenTo (k : Nat) : Nat := Nat.pow 10 k

/-- The number `± coefficient · 10 ^ exponent`. -/
structure Decimal where
  negative : Bool
  coefficient : Nat
  exponent : Int
  deriving DecidableEq

namespace Decimal

/-! ## Digits -/

/-- The decimal digits of a whole number, without leading zeros. -/
def digitsOf (n : Nat) : List Char := Nat.toDigits 10 n

/-- The number of decimal digits of a whole number. -/
def digitCount (n : Nat) : Nat := (digitsOf n).length

/-- The whole number that digits stand for. -/
def ofDigits (digits : List Char) : Nat :=
  digits.foldl (fun n c => 10 * n + (c.toNat - '0'.toNat)) 0

/-- At most `fuel` factors of ten moved from the coefficient to the exponent. -/
def stripZeros : Nat → Nat → Int → Nat × Int
  | 0, coefficient, exponent => (coefficient, exponent)
  | fuel + 1, coefficient, exponent =>
    if coefficient ≠ 0 ∧ coefficient % 10 = 0 then stripZeros fuel (coefficient / 10) (exponent + 1)
    else (coefficient, exponent)

/-- The same value with no trailing zero in the coefficient. -/
def strip (d : Decimal) : Decimal :=
  let (coefficient, exponent) := stripZeros (digitCount d.coefficient) d.coefficient d.exponent
  { d with coefficient, exponent }

/-! ## Written forms -/

/-- How a decimal number is written: positional when the power of ten of its first digit lies in
`[leastPositional, endPositional)`, and whole numbers with a final `.0` or without. -/
structure Style where
  leastPositional : Int
  endPositional : Int
  wholeMark : Bool

/-- The style that keeps apart whole numbers and measured ones: `5.0`, `1e+16`, `0.0001`, `1e-05`. -/
def Style.full : Style := ⟨-4, 16, true⟩

/-- The style for a short figure in a message: `5`, `1e+06`, `0.0001`, `1e-05`. -/
def Style.brief : Style := ⟨-4, 6, false⟩

/-- So many zeros. -/
def zeros (n : Nat) : List Char := List.replicate n '0'

/-- Digits with the decimal point after the first `point` of them, filled up with zeros. -/
def positional (wholeMark : Bool) (digits : List Char) (point : Int) : List Char :=
  if point ≤ 0 then ['0', '.'] ++ zeros (-point).toNat ++ digits
  else
    let k := point.toNat
    if digits.length ≤ k then
      digits ++ zeros (k - digits.length) ++ (if wholeMark then ['.', '0'] else [])
    else digits.take k ++ ['.'] ++ digits.drop k

/-- Digits with the decimal point after the first, and the power of ten in two digits or more. -/
def scientific (digits : List Char) (power : Int) : List Char :=
  let mantissa := match digits with
    | [] => []
    | [d] => [d]
    | d :: rest => d :: '.' :: rest
  let size := digitsOf power.natAbs
  let padded := if size.length < 2 then '0' :: size else size
  mantissa ++ ['e', if power < 0 then '-' else '+'] ++ padded

/-- The written form of a decimal number. -/
def render (style : Style) (d : Decimal) : String :=
  let d := d.strip
  let digits := digitsOf d.coefficient
  let point : Int := if d.coefficient = 0 then 1 else digits.length + d.exponent
  let body :=
    if style.leastPositional ≤ point - 1 ∧ point - 1 < style.endPositional then
      positional style.wholeMark digits point
    else scientific digits (point - 1)
  String.ofList (if d.negative then '-' :: body else body)

/-! ## The nearest double -/

/-- The double nearest to a decimal number, an infinity beyond the largest. A number whose first digit
stands at the 400th place or beyond is out of range on either side. -/
def toFloat (d : Decimal) : Float :=
  let reach : Int := digitCount d.coefficient + d.exponent
  let size : Float :=
    if d.coefficient = 0 ∨ reach < -400 then 0.0
    else if 400 < reach then 1.0 / 0.0
    else Float.ofScientific d.coefficient (d.exponent < 0) d.exponent.natAbs
  if d.negative then -size else size

end Decimal

end Leftover
