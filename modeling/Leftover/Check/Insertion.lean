/-
# Insertions and evidence

One attempt to put a job into the route of a vehicle, and what a constraint says about it.

* `Evidence` : a constraint is kept, or violated by so much
* `Insertion` : the attempt
-/
import Leftover.Plan.Problem
import Leftover.Route.BreakSlot

namespace Leftover

variable {α : Type} [Quantity α]

/-! ## Evidence -/

/-- What a constraint says about an insertion. A violation has a severity if it can be measured. -/
inductive Evidence (α : Type) : Type where
  | satisfied
  | violated (severity : Option α)
  deriving DecidableEq

namespace Evidence

/-- The constraint is kept. -/
def isSatisfied {α : Type} : Evidence α → Bool
  | satisfied => true
  | violated _ => false

/-- How badly the constraint is violated, if it is and that can be measured. -/
def severity {α : Type} : Evidence α → Option α
  | satisfied => none
  | violated severity => severity

/-- The evidence of an amount by which a limit is exceeded: none unless it is positive. -/
def ofExcess (excess : α) : Evidence α := if 0 < excess then violated (some excess) else satisfied

/-- The evidence of a constraint that is either kept or not. -/
def ofKept {α : Type} (kept : Bool) : Evidence α := if kept then satisfied else violated none

end Evidence

/-! ## Insertions -/

/-- A job put into a route before the stop at a position. -/
structure Insertion (α : Type) [Quantity α] where
  job : Job α
  state : RouteState α
  position : Int
  problem : Problem α

namespace Insertion

/-- The vehicle of the route. -/
def vehicle (i : Insertion α) : Vehicle α := i.state.vehicle

/-- The times of the route with the job in it. -/
def schedule (i : Insertion α) : Except Fault (Schedule α) := i.state.insertion i.job i.position

/-- The evidence that a schedule gives, if it has one. Where no path leads on, reachability is the
constraint that is violated, and no other. -/
def onSchedule (i : Insertion α) (judge : Schedule α → Except Fault (Evidence α)) :
    Except Fault (Evidence α) := do
  let schedule ← i.schedule
  if schedule.reachable then judge schedule else return .satisfied

end Insertion

/-- How much an insertion pushes a route beyond a limit that it may already exceed. -/
def addedOverrun (after before : α) : α :=
  let before := if Quantity.isFinite before then before else 0
  Quantity.larger after 0 - Quantity.larger before 0

end Leftover
