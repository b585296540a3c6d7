/-
# Quantities

Minutes, meters and loads. Everything that computes with them is written once, over any type of numbers
with the operations of `Quantity`: doubles when the library runs, exact numbers when it is reasoned about.

* `Quantity` : the operations
* `larger`, `smaller` : the choice between two, which keeps the first one on a tie
* `largest`, `smallest` : the same over a list
-/
import Leftover.Exact
import Leftover.Double

namespace Leftover

/-! ## The operations -/

/-- A type of numbers with infinities and possibly an undefined value that compares with nothing. -/
class Quantity (α : Type) extends Zero α, Add α, Sub α, Mul α, Div α, LT α, LE α where
  ofInt : Int → α
  infinity : α
  isFinite : α → Bool
  isUndefined : α → Bool
  exact : α → Exact
  decideLt (a b : α) : Decidable (a < b)
  decideLe (a b : α) : Decidable (a ≤ b)

namespace Quantity

variable {α : Type} [Quantity α]

instance (a b : α) : Decidable (a < b) := decideLt a b
instance (a b : α) : Decidable (a ≤ b) := decideLe a b

/-- The least value of all. -/
def minusInfinity : α := 0 - infinity

/-- One. -/
def one : α := ofInt 1

/-- A whole number of things as a quantity. -/
def ofNat (n : Nat) : α := ofInt n

/-! ## Choosing between quantities -/

/-- The larger of two, the first one unless the second is strictly larger. -/
def larger (a b : α) : α := if a < b then b else a

/-- The smaller of two, the first one unless the second is strictly smaller. -/
def smaller (a b : α) : α := if b < a then b else a

/-- The first largest of a list, or the given value when the list is empty. -/
def largest (fallback : α) : List α → α
  | [] => fallback
  | x :: xs => xs.foldl larger x

/-- The distance of a value from zero. -/
def size (x : α) : α := if x < 0 then 0 - x else x

/-- The two have the same place in the order. -/
def same (a b : α) : Bool := decide (a ≤ b) && decide (b ≤ a)

end Quantity

/-! ## Instances -/

/-- Doubles, each operation rounded to the nearest double. -/
instance : Quantity Float where
  zero := 0.0
  ofInt := Float.ofInt
  infinity := 1.0 / 0.0
  isFinite := Float.isFinite
  isUndefined := Float.isNaN
  exact := Exact.ofFloat
  decideLt := Float.decLt
  decideLe := Float.decLe

/-- Exact numbers. -/
instance : Quantity Exact where
  ofInt n := .finite n
  infinity := .plusInfinity
  isFinite := Exact.isFinite
  isUndefined := Exact.isUndefined
  exact := id
  decideLt := Exact.decLt
  decideLe := Exact.decLe

end Leftover
