/-
# Rounded decimals of a double

The exact binary value of a double rounded to a number of places or of significant digits, a half going
to the even neighbour.

* `roundDiv` : a quotient rounded to a whole number
* `Decimal.magnitude` : the place of the first digit of a quotient
* `Decimal.significant` : a dyadic number rounded to so many digits
* `fixedText`, `briefText`, `percentText` : written forms of a double
-/
import Leftover.Decimal.Digits
import Leftover.Double

namespace Leftover

/-- The quotient rounded to the nearest whole number, a half to the even one. -/
def roundDiv (numerator denominator : Nat) : Nat :=
  let low := numerator / denominator
  let twice := 2 * (numerator % denominator)
  if twice < denominator then low
  else if denominator < twice then low + 1
  else if low % 2 = 0 then low else low + 1

namespace Decimal

/-- The `k` with `10 ^ (k - 1) ≤ numerator / denominator < 10 ^ k`, for a positive quotient. -/
def magnitude (numerator denominator : Nat) : Int :=
  let k : Int := (digitCount numerator : Int) - digitCount denominator
  if denominator * tenTo k.toNat ≤ numerator * tenTo (-k).toNat then k + 1 else k

/-- A dyadic number rounded to `count` significant digits. -/
def significant (count : Nat) (d : Dyadic) : Decimal :=
  if d.mantissa = 0 then ⟨d.negative, 0, 0⟩
  else
    let exponent := magnitude d.numerator d.denominator - count
    let coefficient := roundDiv (d.numerator * tenTo (-exponent).toNat) (d.denominator * tenTo exponent.toNat)
    ⟨d.negative, coefficient, exponent⟩

end Decimal

/-! ## Written forms -/

/-- The text of a double that is not finite. -/
def specialText (x : Float) : String :=
  if x.isNaN then "nan" else if x < 0 then "-inf" else "inf"

/-- A double with a fixed number of decimal places. -/
def fixedText (places : Nat) (x : Float) : String :=
  match Dyadic.ofFloat? x with
  | none => specialText x
  | some d =>
    let scaled := Decimal.digitsOf (roundDiv (d.numerator * tenTo places) d.denominator)
    let digits := Decimal.zeros (places + 1 - scaled.length) ++ scaled
    let whole := digits.take (digits.length - places)
    let fraction := digits.drop (digits.length - places)
    let body := if places = 0 then whole else whole ++ '.' :: fraction
    String.ofList (if d.negative then '-' :: body else body)

/-- A double in at most six significant digits. -/
def briefText (x : Float) : String :=
  match Dyadic.ofFloat? x with
  | none => specialText x
  | some d => (Decimal.significant 6 d).render .brief

/-- A share in percent with one decimal place, at least six characters wide. -/
def percentText (share : Float) : String :=
  let text := fixedText 1 (share * 100.0) ++ "%"
  String.ofList (List.replicate (6 - text.length) ' ') ++ text

end Leftover
