/-
# Records of violations

What the evaluation of a job leaves behind: a record for each violated constraint, and which vehicles can
reach the job or could take it.
-/
import Leftover.Check.Insertion
import Leftover.Plan.Names

namespace Leftover

/-- What a constraint says about a job, with the vehicle and the position if there is one. -/
structure Record (α : Type) where
  code : Reason
  evidence : Evidence α
  vehicleId : Option Text
  position : Option Int
  deriving DecidableEq

/-- The outcome for one job and one vehicle. -/
structure VehicleOutcome (α : Type) where
  vehicleId : Text
  records : List (Record α)
  unreachable : Bool
  feasible : Bool
  deriving DecidableEq

/-- The outcome for one job over the whole fleet. -/
structure JobEvaluation (α : Type) where
  jobId : Text
  records : List (Record α)
  vehiclesEvaluated : List Text
  unreachableVehicles : List Text
  feasibleVehicles : List Text
  deriving DecidableEq

namespace JobEvaluation

variable {α : Type}

/-- No vehicle can reach the job. -/
def allUnreachable (e : JobEvaluation α) : Bool :=
  !e.vehiclesEvaluated.isEmpty && e.unreachableVehicles.length = e.vehiclesEvaluated.length

/-- The reasons on record, in the order in which they first occur. -/
def codes (e : JobEvaluation α) : List Reason := (e.records.map (·.code)).eraseDups

end JobEvaluation

end Leftover
