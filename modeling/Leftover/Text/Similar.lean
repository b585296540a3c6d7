/-
# Similar words

How alike two words are: by the longest stretch of characters that both have, by what they share in front
of it, and by what they share behind it.

* `Similar.shared` : the number of characters that two words share
* `Similar.nearest` : the words of a list that come near to a given one
-/
import Leftover.Plan.Names
import Leftover.Order.Sorted

namespace Leftover
namespace Similar

/-! ## What two words share -/

/-- A stretch of characters that two words have: where it begins in either, and its length. -/
structure Overlap where
  left : Nat
  right : Nat
  size : Nat

/-- The length of the common beginning of two words. -/
def commonStart : List CodePoint → List CodePoint → Nat
  | a :: as, b :: bs => if a = b then commonStart as bs + 1 else 0
  | _, _ => 0

/-- The stretches that two words have, by where they begin in the first one, then in the second. -/
def overlaps (a b : List CodePoint) : List Overlap :=
  (List.range a.length).flatMap fun i =>
    (List.range b.length).map fun j => ⟨i, j, commonStart (a.drop i) (b.drop j)⟩

/-- The first longest stretch that two words have. -/
def longest (a b : List CodePoint) : Overlap :=
  (overlaps a b).foldl (fun best o => if best.size < o.size then o else best) ⟨0, 0, 0⟩

/-- The number of characters that two words share. Each stretch takes away a character at least, so the
length of a word is enough fuel. -/
def shared : Nat → List CodePoint → List CodePoint → Nat
  | 0, _, _ => 0
  | fuel + 1, a, b =>
    let o := longest a b
    if o.size = 0 then 0
    else
      shared fuel (a.take o.left) (b.take o.right) + o.size
        + shared fuel (a.drop (o.left + o.size)) (b.drop (o.right + o.size))

/-! ## Near words -/

/-- A word with its likeness to another one: twice the characters that they share, over those of both. -/
structure Likeness where
  word : Text
  twiceShared : Nat
  total : Nat

/-- The likeness of a word to another one. -/
def likeness (word other : Text) : Likeness :=
  ⟨word, 2 * shared word.length word.points other.points, word.length + other.length⟩

/-- The two words have three fifths of their characters in common. -/
def Likeness.isNear (x : Likeness) : Bool := 3 * x.total ≤ 5 * x.twiceShared

/-- The first word is more alike, or as much and later in the order of words. -/
def Likeness.before (x y : Likeness) : Bool :=
  let a := x.twiceShared * y.total
  let b := y.twiceShared * x.total
  decide (b < a) || (a == b && decide (y.word < x.word))

/-- The words that come near to another one, three at most, in the order of words. -/
def nearest (words : List Text) (other : Text) : List Text :=
  let near := (words.map fun w => likeness w other).filter Likeness.isNear
  nameSet (((sortedBy Likeness.before near).take 3).map (·.word))

end Similar
end Leftover
