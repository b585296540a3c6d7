/-
# Positions in a list

A position is a whole number. A negative one counts from the end of the list, so `-1` is the last item.

* `place?`, `itemAt?` : the place and the item at a position, if there is one
* `upTo`, `onward` : the items before a position and from it on; a position outside means the nearer end
* `insertAt` : a value put in before a position
-/

namespace Leftover

variable {β : Type}

/-- The place that a position stands for among `size` places. -/
def place? (size : Nat) (position : Int) : Option Nat :=
  let k := if position < 0 then position + size else position
  if 0 ≤ k ∧ k < size then some k.toNat else none

/-- The item at a position. -/
def itemAt? (xs : List β) (position : Int) : Option β := (place? xs.length position).bind fun k => xs[k]?

/-- The number of items before a position. -/
def cut (size : Nat) (position : Int) : Nat :=
  (if position < 0 then position + size else position).toNat

/-- The items before a position. -/
def upTo (xs : List β) (position : Int) : List β := xs.take (cut xs.length position)

/-- The items from a position on. -/
def onward (xs : List β) (position : Int) : List β := xs.drop (cut xs.length position)

/-- A value put into a list before a position. -/
def insertAt (xs : List β) (position : Int) (x : β) : List β := upTo xs position ++ x :: onward xs position

/-! ## Positions counted from the start -/

@[simp] theorem cut_natCast (size k : Nat) : cut size (k : Int) = k := by
  rw [cut, if_neg (by omega), Int.toNat_natCast]

theorem place?_natCast (size k : Nat) : place? size (k : Int) = if k < size then some k else none := by
  have h : ¬(k : Int) < 0 := by omega
  simp [place?, h]

@[simp] theorem itemAt?_natCast (xs : List β) (k : Nat) : itemAt? xs (k : Int) = xs[k]? := by
  rw [itemAt?, place?_natCast]
  by_cases h : k < xs.length <;> simp_all

@[simp] theorem upTo_natCast (xs : List β) (k : Nat) : upTo xs (k : Int) = xs.take k := by simp [upTo]

@[simp] theorem onward_natCast (xs : List β) (k : Nat) : onward xs (k : Int) = xs.drop k := by simp [onward]

/-- The two parts of a list at a position make up the list. -/
theorem upTo_append_onward (xs : List β) (position : Int) : upTo xs position ++ onward xs position = xs :=
  List.take_append_drop _ _

end Leftover
