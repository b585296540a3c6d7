/-
# Checks at a value

A single check may be asked about any value in place of a position. A value that is none is a fault only where
the check looks at the position. A number between two places can be compared with them, but no job stands there.

* `Given.check` : what the constraint of a reason says about an insertion at a value
-/
import Leftover.Check.Catalog
import Leftover.Given

namespace Leftover
namespace Given

variable {α : Type} [Quantity α] [Plane α]

/-! ## Paths and times -/

/-- Where the schedule of an insertion at a value fails. -/
def scheduleFault (i : Insertion α) (place : Json) : Fault :=
  match insertion i.state i.job place with
  | .error fault => fault
  | .ok _ => .wrongKind

/-- Paths lead from where the route begins to the job, and on to where it ends. No stop is looked up before or
after the number. -/
def checkReachable (i : Insertion α) (n : Number) : Except Fault (Evidence α) :=
  let m := i.state.matrix
  if Number.whole 0 < n ∨ n < Number.whole i.state.size then .error .wrongKind
  else .ok (.ofKept (m.isReachable i.state.origin.location i.job.location
    && i.vehicle.endLocation.all (m.isReachable i.job.location)))

/-! ## Relations -/

/-- A relation that lists the job is kept at a number. -/
def keepsRelation (i : Insertion α) (n : Number) (r : Relation) : Bool :=
  let (before, after) := Insertion.around r i.job.id
  let isAt (m : Number) (k : Int) : Bool := decide (m ≤ .whole k) && decide (.whole k ≤ m)
  let inOrder := (before.all fun id => i.placedOr id fun k => !decide (n ≤ .whole k))
    && (after.all fun id => i.placedOr id fun k => !decide (Number.whole k < n))
  let besides := (before.getLast?.all fun id => i.placedOr id (isAt (n - .whole 1)))
    && (after.head?.all fun id => i.placedOr id (isAt n))
  r.vehicleId = i.vehicle.id && (r.type = .any || (inOrder && (r.type = .sequence || besides)))

/-- One of the relations is told of another vehicle, and no relation before it has a member in the route whose
place is asked for. -/
def isElsewhere (i : Insertion α) : List Relation → Bool
  | [] => false
  | r :: rest =>
    let (before, after) := Insertion.around r i.job.id
    r.vehicleId ≠ i.vehicle.id
      || ((r.type = .any || (before ++ after).all fun id => (i.placeOf? id).isNone) && isElsewhere i rest)

/-- All relations are kept. -/
def checkLocking (i : Insertion α) (place : Json) : Except Fault (Evidence α) :=
  let relations := i.problem.relationsFor i.job.id
  match number place with
  | .error fault => if isElsewhere i relations then .ok (.violated none) else .error fault
  | .ok n =>
    if !relations.all (keepsRelation i n) then .ok (.violated none)
    else if Number.whole 0 < n ∧ n < Number.whole i.state.size then .error .wrongKind
    else .ok .satisfied

/-! ## Order values -/

/-- Jobs with a lower order value are served earlier. Without a position all jobs stand before the new one and
after it. -/
def checkPriority (i : Insertion α) (place : Json) : Except Fault (Evidence α) :=
  match i.job.order, place with
  | none, _ => .ok .satisfied
  | some order, .null =>
    let n := Insertion.countOrders i.state.jobs (order < ·) + Insertion.countOrders i.state.jobs (· < order)
    .ok (if n = 0 then .satisfied else .violated (some (Quantity.ofNat n)))
  | some _, _ => .error .wrongKind

/-! ## Checks -/

/-- What the constraint of a reason says about an insertion at a value that is no position. -/
def checkBeside (i : Insertion α) (place : Json) : Reason → Except Fault (Evidence α)
  | .timeWindow | .shiftTime => .error (scheduleFault i place)
  | .maxDistance => if i.vehicle.maxDistance.isNone then .ok .satisfied else .error (scheduleFault i place)
  | .breaks => if i.vehicle.breaks.isEmpty then .ok .satisfied else .error (scheduleFault i place)
  | .capacity => .error .wrongKind
  | .reachable => do checkReachable i (← number place)
  | .locking => checkLocking i place
  | .priority => checkPriority i place
  | code => i.check code

/-- What the constraint of a reason says about an insertion at a value. A position outside the route is told as it is
given. -/
def check (job : Job α) (state : RouteState α) (problem : Problem α) (place : Json) (code : Reason) :
    Except Fault (Evidence α) :=
  match position place with
  | .error _ => checkBeside ⟨job, state, 0, problem⟩ place code
  | .ok k =>
    match Insertion.check ⟨job, state, k, problem⟩ code with
    | .error (.outsideRoute _ size) => .error (.outsideRoute place.shown size)
    | answer => answer

end Given
end Leftover
