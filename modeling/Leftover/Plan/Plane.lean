/-
# Points and areas

An area of the plane is given by the corners of its border. Which points it covers is for others to say: a check only
asks, and goes by whatever it is told.

* `Point` : a point of the plane
* `Plane.covers` : an area covers a point
* `Plane.StopsNothing` : what is wrong with an area or a point stops nothing
-/
import Leftover.Fault

namespace Leftover

/-- A point of the plane. -/
structure Point (α : Type) where
  x : α
  y : α
  deriving DecidableEq

/-- Areas of the plane, for coordinates of some type. -/
class Plane (α : Type) where
  /-- The area inside some corners covers a point, if there is nothing wrong with either of them. -/
  covers : List (Point α) → Point α → Except Fault Bool

/-- Whatever is wrong with some corners or a point, it is no reason to stop the evaluation of a job. -/
def Plane.StopsNothing (α : Type) [Plane α] : Prop :=
  ∀ (corners : List (Point α)) (p : Point α) fault, Plane.covers corners p = .error fault → fault.ends = false

end Leftover
