/-
# Numbers as they are given

A number from outside is a flag, a whole number or a double. It stays what it is as long as nothing is
computed with it, and whole numbers are computed with exactly; only a double brings the other number to
doubles, if it has a place there.

* `Number.combined` : how two numbers come together
* `Number.settled` : the outcome of arithmetic, or a fault
* `Number.bounded` : a number that has a place among doubles, or a fault
-/
import Leftover.Fault
import Leftover.Quantity

namespace Leftover

/-- A number as it is given, or the lack of an outcome of arithmetic. -/
inductive Number : Type where
  /-- A flag, which counts as zero or one. -/
  | flag (value : Bool)
  /-- A whole number of any size. -/
  | whole (value : Int)
  /-- A double. -/
  | measure (value : Float)
  /-- A whole number beyond the range of doubles met a double. -/
  | beyond

namespace Number

/-! ## What a number counts as -/

/-- The whole number that a flag or a whole number counts as. -/
def whole? : Number → Option Int
  | flag b => some (if b then 1 else 0)
  | whole n => some n
  | _ => none

/-- The double of a number within the range of doubles. -/
def double? : Number → Option Float
  | measure x => some x
  | beyond => none
  | flag b => some (if b then 1.0 else 0.0)
  | whole n => if (Float.ofInt n).isFinite then some (Float.ofInt n) else none

/-- The exact value. -/
def exact : Number → Exact
  | flag b => .finite (if b then 1 else 0)
  | whole n => .finite n
  | measure x => .ofFloat x
  | beyond => .undefined

/-! ## Arithmetic -/

/-- The outcome of an operation: on whole numbers if both numbers are whole, else on doubles. -/
def combined (onWholes : Int → Int → Int) (onDoubles : Float → Float → Float) (a b : Number) : Number :=
  match a.whole?, b.whole? with
  | some m, some n => whole (onWholes m n)
  | _, _ =>
    match a.double?, b.double? with
    | some x, some y => measure (onDoubles x y)
    | _, _ => beyond

/-- The quotient, always a double. -/
def quotient (a b : Number) : Number :=
  match a.double?, b.double? with
  | some x, some y => measure (x / y)
  | _, _ => beyond

/-- Strictly smaller in exact value. -/
def isLess : Number → Number → Bool
  | measure x, measure y => decide (x < y)
  | a, b => decide (a.exact < b.exact)

/-- Smaller or equal in exact value. -/
def isAtMost : Number → Number → Bool
  | measure x, measure y => decide (x ≤ y)
  | a, b => decide (a.exact ≤ b.exact)

instance : LT Number := ⟨fun a b => isLess a b = true⟩
instance : LE Number := ⟨fun a b => isAtMost a b = true⟩

/-- Numbers as quantities. -/
instance : Quantity Number where
  zero := measure 0.0
  add := combined (· + ·) (· + ·)
  sub := combined (· - ·) (· - ·)
  mul := combined (· * ·) (· * ·)
  div := quotient
  ofInt n := measure (Float.ofInt n)
  infinity := measure Quantity.infinity
  isFinite a := a.exact.isFinite
  isUndefined a := a.exact.isUndefined
  exact := exact
  decideLt a b := inferInstanceAs (Decidable (isLess a b = true))
  decideLe a b := inferInstanceAs (Decidable (isAtMost a b = true))

/-! ## Faults -/

/-- The number, unless it stands for the lack of an outcome. -/
def settled : Number → Except Fault Number
  | beyond => .error .numberTooLarge
  | a => .ok a

/-- The number, if it has a place among doubles. -/
def bounded (a : Number) : Except Fault Number := if a.double?.isSome then .ok a else .error .numberTooLarge

end Number

end Leftover
