/-
# Texts on a screen

A text may hold control sequences, which tell a screen how to show what follows. They are taken out of what is
printed where no screen is.

* `Text.withoutControls` : a text without control sequences
-/
import Leftover.Text

namespace Leftover

/-- The number of the code point lies between two others. -/
def CodePoint.isBetween (first last : Nat) (p : CodePoint) : Bool := first ≤ p.val && p.val ≤ last

/-- The text after a control sequence whose opening was read: parameters, then other marks, then a last character.
A sequence that breaks off is none. -/
def afterControls? (points : List CodePoint) : Option (List CodePoint) :=
  match (points.dropWhile (CodePoint.isBetween 0x30 0x3f)).dropWhile (CodePoint.isBetween 0x20 0x2f) with
  | last :: rest => if last.isBetween 0x40 0x7e then some rest else none
  | [] => none

/-- Code points without control sequences. Each step takes one at least, so their number is enough fuel. -/
def dropControls : Nat → List CodePoint → List CodePoint
  | 0, points => points
  | _ + 1, [] => []
  | fuel + 1, p :: rest =>
    match if p = .ofChar '\x1b' && rest.head? = some (.ofChar '[') then afterControls? (rest.drop 1) else none with
    | some after => dropControls fuel after
    | none => p :: dropControls fuel rest

/-- A text without control sequences. Sequences that only come together when others are taken out stay. -/
def Text.withoutControls (t : Text) : Text := ⟨dropControls t.length t.points⟩

end Leftover
