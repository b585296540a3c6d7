/-
# Refined numbers

A number as the sum of two: a main part, and a rest too small to be seen beside it. Adding and multiplying
keep what rounding takes from the main part, so doubles give twice their digits. Where nothing is rounded,
the rest stays zero.

* `Refined.add`, `Refined.sub`, `Refined.mul` : arithmetic
* `Refined.sign` : minus one, zero or one
-/
import Leftover.Quantity

namespace Leftover

/-- The sign of a number, zero where it is undefined. -/
def Quantity.sign {α : Type} [Quantity α] (x : α) : Int := if 0 < x then 1 else if x < 0 then -1 else 0

/-- The sum of a main part and a much smaller rest. -/
structure Refined (α : Type) where
  main : α
  rest : α
  deriving DecidableEq

namespace Refined

variable {α : Type} [Quantity α]

/-! ## Parts -/

/-- A plain number. -/
def ofPlain (x : α) : Refined α := ⟨x, 0⟩

/-- A main part and a rest brought together: the main part takes up what it can hold. -/
def settled (main rest : α) : Refined α := ⟨main + rest, rest + (main - (main + rest))⟩

/-- The sum of two numbers, and what rounding took from it. -/
def sumOf (x y : α) : Refined α :=
  let sum := x + y
  let part := sum - x
  ⟨sum, (y - part) + (x - (sum - part))⟩

/-- The front half of the digits of a number, and the others. -/
def halves (x : α) : α × α :=
  let stretched := Quantity.ofInt 134217729 * x
  let front := stretched - (stretched - x)
  (front, x - front)

/-! ## Arithmetic -/

/-- The number with its sign changed. -/
def neg (x : Refined α) : Refined α := ⟨0 - x.main, 0 - x.rest⟩

/-- The sum. -/
def add (x y : Refined α) : Refined α :=
  let high := sumOf x.main y.main
  let low := sumOf x.rest y.rest
  let carried := high.rest + low.main
  let sum := high.main + carried
  settled sum (low.rest + (carried + (high.main - sum)))

/-- The difference. -/
def sub (x y : Refined α) : Refined α := add x (neg y)

/-- The product. -/
def mul (x y : Refined α) : Refined α :=
  let (a, b) := halves x.main
  let (c, d) := halves y.main
  let product := x.main * y.main
  settled product ((((a * c - product) + a * d) + b * c + b * d) + (x.main * y.rest + x.rest * y.main))

/-- Minus one, zero or one: the sign of the main part, or that of the rest beside a main part of zero. -/
def sign (x : Refined α) : Int :=
  if Quantity.sign x.main = 0 then Quantity.sign x.rest else Quantity.sign x.main

end Refined

end Leftover
