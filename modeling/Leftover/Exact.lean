/-
# Exact numbers with infinities

Rational numbers together with two infinities and an undefined value. Arithmetic never rounds; what has
no value (such as the difference of two equal infinities) is undefined, and nothing compares with it.

* `Exact.lt`, `Exact.le` : the order, false wherever the undefined value takes part
* `Exact.add`, `Exact.sub`, `Exact.mul`, `Exact.div` : arithmetic
-/

namespace Leftover

/-! ## Values -/

/-- A rational number, an infinity, or no number at all. -/
inductive Exact : Type where
  | undefined
  | minusInfinity
  | finite (value : Rat)
  | plusInfinity
  deriving DecidableEq

namespace Exact

instance : Inhabited Exact := ⟨finite 0⟩

/-- The value is a rational number. -/
def isFinite : Exact → Bool
  | finite _ => true
  | _ => false

/-- The value is no number. -/
def isUndefined : Exact → Bool
  | undefined => true
  | _ => false

/-- The rational number, if the value is one. -/
def toRat? : Exact → Option Rat
  | finite q => some q
  | _ => none

/-! ## Order -/

/-- Strictly smaller; never true of the undefined value. -/
def lt : Exact → Exact → Bool
  | finite a, finite b => decide (a < b)
  | minusInfinity, finite _ => true
  | minusInfinity, plusInfinity => true
  | finite _, plusInfinity => true
  | _, _ => false

/-- Smaller or equal; never true of the undefined value. -/
def le : Exact → Exact → Bool
  | undefined, _ => false
  | _, undefined => false
  | a, b => !lt b a

instance : LT Exact := ⟨fun a b => lt a b = true⟩
instance : LE Exact := ⟨fun a b => le a b = true⟩

instance decLt (a b : Exact) : Decidable (a < b) := inferInstanceAs (Decidable (lt a b = true))
instance decLe (a b : Exact) : Decidable (a ≤ b) := inferInstanceAs (Decidable (le a b = true))

/-! ## Arithmetic -/

/-- The value with its sign changed. -/
def neg : Exact → Exact
  | undefined => undefined
  | minusInfinity => plusInfinity
  | finite q => finite (-q)
  | plusInfinity => minusInfinity

/-- The sum; opposite infinities have none. -/
def add : Exact → Exact → Exact
  | finite a, finite b => finite (a + b)
  | plusInfinity, finite _ => plusInfinity
  | plusInfinity, plusInfinity => plusInfinity
  | finite _, plusInfinity => plusInfinity
  | minusInfinity, finite _ => minusInfinity
  | minusInfinity, minusInfinity => minusInfinity
  | finite _, minusInfinity => minusInfinity
  | _, _ => undefined

/-- The difference; equal infinities have none. -/
def sub (a b : Exact) : Exact := add a (neg b)

/-- The infinity of the given sign, or the undefined value for no sign. -/
def infinityOfSign (sign : Int) : Exact :=
  if 0 < sign then plusInfinity else if sign < 0 then minusInfinity else undefined

/-- The sign of a rational number. -/
def signOf (q : Rat) : Int := q.num.sign

/-- The product; zero times an infinity has none. -/
def mul : Exact → Exact → Exact
  | finite a, finite b => finite (a * b)
  | finite a, plusInfinity => infinityOfSign (signOf a)
  | finite a, minusInfinity => infinityOfSign (-signOf a)
  | plusInfinity, finite b => infinityOfSign (signOf b)
  | minusInfinity, finite b => infinityOfSign (-signOf b)
  | plusInfinity, plusInfinity => plusInfinity
  | minusInfinity, minusInfinity => plusInfinity
  | plusInfinity, minusInfinity => minusInfinity
  | minusInfinity, plusInfinity => minusInfinity
  | _, _ => undefined

/-- The quotient; a number over zero is the infinity of its sign, and zero over zero has none. -/
def div : Exact → Exact → Exact
  | finite a, finite b => if b = 0 then infinityOfSign (signOf a) else finite (a / b)
  | finite _, plusInfinity => finite 0
  | finite _, minusInfinity => finite 0
  | plusInfinity, finite b => if b < 0 then minusInfinity else plusInfinity
  | minusInfinity, finite b => if b < 0 then plusInfinity else minusInfinity
  | _, _ => undefined

instance : Zero Exact := ⟨finite 0⟩
instance : Neg Exact := ⟨neg⟩
instance : Add Exact := ⟨add⟩
instance : Sub Exact := ⟨sub⟩
instance : Mul Exact := ⟨mul⟩
instance : Div Exact := ⟨div⟩

end Exact

end Leftover
