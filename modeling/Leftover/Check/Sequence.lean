/-
# The order of jobs

The constraints on which jobs stand before and after the new one: relations lock jobs to a vehicle and to
an order, and a job with a lower order value is served before one with a higher.
-/
import Leftover.Check.Insertion

namespace Leftover
namespace Insertion

variable {α : Type} [Quantity α]

/-! ## Relations of the job -/

/-- The place in the route of a member of a relation. -/
def placeOf? (i : Insertion α) (jobId : Text) : Option Int := (i.state.placeOf? jobId).map Int.ofNat

/-- The member is not in the route, or its place is as wanted. -/
def placedOr (i : Insertion α) (jobId : Text) (wanted : Int → Bool) : Bool :=
  match i.placeOf? jobId with
  | none => true
  | some k => wanted k

/-- The members of a relation before the job, and those after it. -/
def around (r : Relation) (jobId : Text) : List Text × List Text :=
  let k := r.jobs.idxOf jobId
  (r.jobs.take k, r.jobs.drop (k + 1))

/-- The members before the job stand before the position, those after it behind. -/
def keepsOrder (i : Insertion α) (before after : List Text) : Bool :=
  (before.all fun id => i.placedOr id (· < i.position))
    && (after.all fun id => i.placedOr id (i.position ≤ ·))

/-- The nearest members of a relation stand right beside the position. -/
def keepsNeighbours (i : Insertion α) (before after : List Text) : Bool :=
  (before.getLast?.all fun id => i.placedOr id (· = i.position - 1))
    && (after.head?.all fun id => i.placedOr id (· = i.position))

/-- A relation that lists the job is kept. -/
def keepsRelation (i : Insertion α) (r : Relation) : Bool :=
  let (before, after) := around r i.job.id
  r.vehicleId = i.vehicle.id &&
    match r.type with
    | .any => true
    | .sequence => i.keepsOrder before after
    | .strict => i.keepsOrder before after && i.keepsNeighbours before after

/-! ## Relations of others -/

/-- Two jobs are next to each other in a strict relation that does not list the job to be inserted. -/
def joins (i : Insertion α) (left right : Text) (r : Relation) : Bool :=
  r.type = .strict && !r.jobs.contains i.job.id && r.jobs.contains left && r.jobs.contains right
    && r.jobs.idxOf right = r.jobs.idxOf left + 1

/-- The position does not lie between two jobs that a relation of the vehicle wants side by side. -/
def splitsNone (i : Insertion α) : Bool :=
  if 0 < i.position ∧ i.position < i.state.size then
    match itemAt? i.state.jobs (i.position - 1), itemAt? i.state.jobs i.position with
    | some left, some right => !(i.problem.relationsOf i.vehicle.id).any (i.joins left.id right.id)
    | _, _ => true
  else true

/-- All relations are kept. -/
def checkLocking (i : Insertion α) : Except Fault (Evidence α) :=
  .ok (.ofKept ((i.problem.relationsFor i.job.id).all i.keepsRelation && i.splitsNone))

/-! ## Order values -/

/-- The jobs of a list whose order value is as told. -/
def countOrders (jobs : List (Job α)) (told : Int → Bool) : Nat :=
  jobs.countP fun job => job.order.any told

/-- The pairs of jobs that the new job puts in the wrong order. -/
def inversions (i : Insertion α) (order : Int) : Nat :=
  countOrders (upTo i.state.jobs i.position) (order < ·) + countOrders (onward i.state.jobs i.position) (· < order)

/-- Jobs with a lower order value are served earlier. -/
def checkPriority (i : Insertion α) : Except Fault (Evidence α) :=
  match i.job.order with
  | none => .ok .satisfied
  | some order =>
    let n := i.inversions order
    .ok (if n = 0 then .satisfied else .violated (some (Quantity.ofNat n)))

end Insertion
end Leftover
