/-
# The shortest decimal of a double

The decimal with the fewest digits among those that are nearer to the given double than to any other
double, and of these the one nearest to its exact value.

* `Rounding.Cell` : the reals that round to a double, in whole numbers
* `Decimal.shortest` : the decimal
* `shortestText` : its written form
-/
import Leftover.Decimal.Digits
import Leftover.Decimal.Rounded
import Leftover.Double

namespace Leftover

/-! ## The reals that round to a double -/

namespace Rounding

/-- The interval of reals that round to a double: `low`, `value` and `high` over one `denominator`, the
ends included when the mantissa is even. -/
structure Cell where
  low : Nat
  value : Nat
  high : Nat
  denominator : Nat
  closed : Bool

/-- The cell of a positive dyadic number: half a unit to either side, but a quarter below a power of two
whose lower neighbour has the finer grid. -/
def Cell.ofDyadic (d : Dyadic) : Cell :=
  let unit := twoTo (d.exponent - 2).toNat
  let below := if d.mantissa = twoTo 52 ∧ -1074 < d.exponent then 1 else 2
  { low := (4 * d.mantissa - below) * unit
    value := 4 * d.mantissa * unit
    high := (4 * d.mantissa + 2) * unit
    denominator := twoTo (2 - d.exponent).toNat
    closed := d.mantissa % 2 = 0 }

/-- The decimal `coefficient · 10 ^ exponent` lies in the cell. -/
def Cell.holds (cell : Cell) (coefficient : Nat) (exponent : Int) : Bool :=
  let point := coefficient * tenTo exponent.toNat * cell.denominator
  let scale := tenTo (-exponent).toNat
  if cell.closed then cell.low * scale ≤ point && point ≤ cell.high * scale
  else cell.low * scale < point && point < cell.high * scale

/-- The two neighbours of the value on the grid of multiples of `10 ^ exponent`: the nearer one that lies
in the cell, an even coefficient on a tie. -/
def Cell.onGrid? (cell : Cell) (exponent : Int) : Option Nat :=
  let value := cell.value * tenTo (-exponent).toNat
  let step := cell.denominator * tenTo exponent.toNat
  let down := value / step
  let rest := value % step
  match cell.holds down exponent, cell.holds (down + 1) exponent with
  | true, true =>
    some (if 2 * rest < step then down
      else if step < 2 * rest then down + 1
      else if down % 2 = 0 then down else down + 1)
  | true, false => some down
  | false, true => some (down + 1)
  | false, false => none

end Rounding

/-! ## The decimal -/

/-- The first grid, from one significant digit on, that has a point in the cell; seventeen digits always
suffice. -/
def Decimal.shortest (d : Dyadic) : Decimal :=
  if d.mantissa = 0 then ⟨d.negative, 0, 0⟩
  else
    let cell := Rounding.Cell.ofDyadic d
    let k := magnitude cell.value cell.denominator
    let found := (List.range 17).findSome? fun n =>
      let exponent := k - (n + 1 : Nat)
      (cell.onGrid? exponent).map fun c => (⟨d.negative, c, exponent⟩ : Decimal)
    (found.getD (significant 17 d)).strip

/-- The shortest text that reads back as the double. -/
def shortestText (x : Float) : String :=
  match Dyadic.ofFloat? x with
  | none => specialText x
  | some d => (Decimal.shortest d).render .full

end Leftover
