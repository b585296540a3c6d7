/-
# Trials

A trial lists the constraints that a job violates at one position of a route. Among the trials of a
vehicle one is shown: the one that is closest to a plan that keeps all constraints.

* `Trial` : the violations found at a position
* `Trial.compareClosest` : fewest violations, then the mildest, then the earliest position
* `Trial.compareObstacle` : the least fundamental first violation, then the mildest, then the earliest
-/
import Leftover.Diagnosis.Record
import Leftover.Diagnosis.Severity

namespace Leftover

/-- The violations found at a position, in priority order, each with its severity. A trial that was broken off
at a violation is not complete. -/
structure Trial (α : Type) where
  position : Nat
  violations : List (Reason × Option α)
  complete : Bool
  deriving DecidableEq

namespace Trial

variable {α : Type} [Quantity α]

/-- The trial with one more violation in front. -/
def blame (t : Trial α) (r : Reason) (severity : Option α) : Trial α :=
  { t with violations := (r, severity) :: t.violations }

/-- All constraints are kept, and none was left out. -/
def isFree (t : Trial α) : Bool := t.complete && t.violations.isEmpty

/-! ## Closeness -/

/-- The severity of a reason in a trial, zero if its constraint is kept. -/
def severityOf (t : Trial α) (r : Reason) : Option α :=
  match t.violations.find? (·.1 = r) with
  | some (_, severity) => severity
  | none => some 0

/-- The severities of all reasons in priority order. -/
def severities (t : Trial α) : List (Option α) := priorityOrder.map t.severityOf

/-- The trial with fewer violations comes first; with as many, the one with the milder violations, the
most fundamental reason deciding; with the same ones, the one at the earlier position. -/
def compareClosest (t u : Trial α) : Ordering :=
  ((compare t.violations.length u.violations.length).then (compareSeverities t.severities u.severities)).then
    (compare t.position u.position)

/-! ## First obstacles -/

/-- A trial without violations comes first. Of two others, the one whose first violation is of the less
fundamental reason; then the one where it is milder; then the one at the earlier position. -/
def compareObstacle (t u : Trial α) : Ordering :=
  match t.violations, u.violations with
  | [], [] => compare t.position u.position
  | [], _ :: _ => .lt
  | _ :: _, [] => .gt
  | (r, x) :: _, (s, y) :: _ =>
    ((compare s.rank r.rank).then (compareSeverity x y)).then (compare t.position u.position)

/-- The first trial that no later one comes before, if there is any trial. -/
def nearest (order : Trial α → Trial α → Ordering) : List (Trial α) → Except Fault (Trial α)
  | [] => .error .noCandidate
  | t :: rest => .ok (firstLeast order t rest)

/-! ## Records -/

/-- The records of a trial. -/
def records (t : Trial α) (vehicleId : Text) : List (Record α) :=
  t.violations.map fun (r, severity) => ⟨r, .violated severity, some vehicleId, some t.position⟩

end Trial

end Leftover
