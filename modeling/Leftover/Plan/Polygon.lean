/-
# Polygons

Whether an area covers a point, its border included. Inside is where a ray to the right crosses the border
an odd number of times. The side of a piece on which the point lies is the sign of a determinant, found
with refined numbers when plain ones leave it in doubt.

* `Point.side` : the side of a line
* `Ring.ofCorners` : the border through some corners
* `Ring.covers` : the point lies inside or on the border
* `Ring.coversBy` : the planes of doubles and of exact numbers
-/
import Leftover.Plan.Plane
import Leftover.Refined

namespace Leftover

namespace Point

variable {α : Type} [Quantity α]

/-- A coordinate of the point is undefined. -/
def isUndefined (p : Point α) : Bool := Quantity.isUndefined p.x || Quantity.isUndefined p.y

/-- Neither coordinate of the point is infinite or undefined. -/
def isFinite (p : Point α) : Bool := Quantity.isFinite p.x && Quantity.isFinite p.y

/-- The two have the same defined coordinates. -/
def meets (p q : Point α) : Bool := Quantity.same p.x q.x && Quantity.same p.y q.y

/-! ## Sides of a line -/

/-- How much of a sum of two products of differences rounding can take at most. -/
def doubt : α := Quantity.ofInt 211106231791537 / Quantity.ofNat (twoTo 99)

/-- The side by plain arithmetic, if rounding cannot have changed it. -/
def plainSide? (p a b : Point α) : Option Int :=
  let left := (a.x - p.x) * (b.y - p.y)
  let right := (a.y - p.y) * (b.x - p.x)
  let difference := left - right
  if Quantity.size (left + right) * doubt ≤ Quantity.size difference then some (Quantity.sign difference)
  else none

/-- The side by refined arithmetic. -/
def refinedSide (p a b : Point α) : Int :=
  let across (x y : α) : Refined α := .sub (.ofPlain y) (.ofPlain x)
  (Refined.sub (.mul (across a.x b.x) (across b.y p.y)) (.mul (across a.y b.y) (across b.x p.x))).sign

/-- On which side of the line from `a` to `b` the point lies: positive on the left, negative on the right,
zero on the line. -/
def side (p a b : Point α) : Except Fault Int :=
  if p.isFinite then .ok ((p.plainSide? a b).getD (p.refinedSide a b)) else .error .boundlessPoint

end Point

/-- A closed line through corners, the first of them again at the end. -/
structure Ring (α : Type) where
  corners : List (Point α)
  deriving DecidableEq

namespace Ring

variable {α : Type} [Quantity α]

/-! ## Building a ring -/

/-- The line through some corners, led back to the first one when it does not end there. A triangle is
always led back. -/
def closed (corners : List (Point α)) : List (Point α) :=
  match corners, corners.getLast? with
  | first :: _, some last =>
    if corners.length = 3 ∨ !first.meets last then corners ++ [first] else corners
  | _, _ => corners

/-- The border through some corners. None is fine, but one or two make no border. -/
def ofCorners (corners : List (Point α)) : Except Fault (Ring α) :=
  match corners with
  | [] => .ok ⟨[]⟩
  | first :: _ =>
    if (closed corners).length < 4 then .error .tooFewCorners
    else if first.isUndefined then .error .undefinedCorner
    else .ok ⟨closed corners⟩

/-! ## Crossings -/

/-- How a piece of the border lies to a ray from a point to the right. -/
inductive Contact : Type where
  /-- The ray does not cross the piece. -/
  | clear
  /-- The ray crosses it. -/
  | crossing
  /-- The point lies on it. -/
  | touching
  deriving DecidableEq

/-- The value lies between two others, in either order. -/
def between (x a b : α) : Bool := if b < a then b ≤ x && x ≤ a else a ≤ x && x ≤ b

/-- How a piece that the ray may cross lies to it. -/
def contactBySide (a b : Point α) (side : Int) : Contact :=
  if side = 0 then .touching
  else if 0 < (if b.y < a.y then -side else side) then .crossing else .clear

/-- How the piece from `a` to `b` lies to the ray from a point. A piece that rises holds its lower end and
not its upper one, so a corner is not crossed twice. -/
def contact (p a b : Point α) : Except Fault Contact :=
  if a.x < p.x ∧ b.x < p.x then .ok .clear
  else if p.meets b then .ok .touching
  else if Quantity.same a.y p.y && Quantity.same b.y p.y then
    .ok (if between p.x a.x b.x then .touching else .clear)
  else if (p.y < a.y ∧ b.y ≤ p.y) ∨ (p.y < b.y ∧ a.y ≤ p.y) then
    (p.side a b).map (contactBySide a b)
  else .ok .clear

/-- The pieces of the border. -/
def pieces (r : Ring α) : List (Point α × Point α) := r.corners.zip (r.corners.drop 1)

/-- The point lies on one of the pieces, or the ray from it crosses an odd number of them. Pieces after
one that holds the point are not looked at. -/
def isInside (p : Point α) (odd : Bool) : List (Point α × Point α) → Except Fault Bool
  | [] => .ok odd
  | (a, b) :: rest => do
    match ← contact p a b with
    | .clear => isInside p odd rest
    | .crossing => isInside p (!odd) rest
    | .touching => return true

/-! ## Covering -/

/-- The value is within the least and the largest of some others. -/
def isWithin (x : α) : List α → Bool
  | [] => false
  | first :: rest => rest.foldl Quantity.smaller first ≤ x && x ≤ rest.foldl Quantity.larger first

/-- The point is within the bounds of the border. -/
def isInBounds (r : Ring α) (p : Point α) : Bool :=
  isWithin p.x (r.corners.map (·.x)) && isWithin p.y (r.corners.map (·.y))

/-- The point lies on the border or inside it. -/
def covers (r : Ring α) (p : Point α) : Except Fault Bool :=
  if r.isInBounds p then isInside p false r.pieces else .ok false

/-- The border through some corners covers the point. -/
def coversBy (corners : List (Point α)) (p : Point α) : Except Fault Bool := do
  let ring ← ofCorners corners
  ring.covers p

end Ring

/-! ## Planes -/

/-- The plane of doubles. -/
instance : Plane Float := ⟨Ring.coversBy⟩

/-- The plane of exact numbers. -/
instance : Plane Exact := ⟨Ring.coversBy⟩

end Leftover
