/-
# The value of a double

A finite double is a whole number times a power of two. Reading that off its bits makes every question
about its exact value (order on the real line, rounding, decimal digits) one of whole numbers.

* `Dyadic` : sign, mantissa and binary exponent
* `Dyadic.ofFloat?` : the parts of a finite double
* `Exact.ofFloat` : the exact value of any double
-/
import Leftover.Exact

namespace Leftover

/-- A power of two. -/
def twoTo (k : Nat) : Nat := Nat.pow 2 k

/-! ## Parts of a double -/

/-- The number `± mantissa · 2 ^ exponent`. -/
structure Dyadic where
  negative : Bool
  mantissa : Nat
  exponent : Int
  deriving DecidableEq

namespace Dyadic

/-- The parts of a finite double, none for an infinity or an undefined value. -/
def ofFloat? (x : Float) : Option Dyadic :=
  let bits : Nat := x.toBits.toNat
  let negative : Bool := twoTo 63 ≤ bits
  let biased : Nat := bits / twoTo 52 % twoTo 11
  let fraction : Nat := bits % twoTo 52
  if biased = 2047 then none
  else if biased = 0 then some ⟨negative, fraction, -1074⟩
  else some ⟨negative, fraction + twoTo 52, (biased : Int) - 1075⟩

/-- The numerator of the value without its sign, over `denominator`. -/
def numerator (d : Dyadic) : Nat := d.mantissa * twoTo d.exponent.toNat

/-- A power of two, one unless the exponent is negative. -/
def denominator (d : Dyadic) : Nat := twoTo (-d.exponent).toNat

/-- The value as a rational number. -/
def toRat (d : Dyadic) : Rat :=
  let size : Rat := mkRat d.numerator d.denominator
  if d.negative then -size else size

/-- The whole number with this value, if the value is whole. -/
def toInt? (d : Dyadic) : Option Int :=
  if d.numerator % d.denominator = 0 then
    let size : Int := (d.numerator / d.denominator : Nat)
    some (if d.negative then -size else size)
  else none

end Dyadic

/-- The exact value of a double. -/
def Exact.ofFloat (x : Float) : Exact :=
  match Dyadic.ofFloat? x with
  | some d => .finite d.toRat
  | none => if x.isNaN then .undefined else if x < 0 then .minusInfinity else .plusInfinity

end Leftover
