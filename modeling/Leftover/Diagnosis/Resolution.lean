/-
# The reason that is shown

Of all violations on record for a job one reason is shown, with the vehicle that it is told of.

* `Resolution` : the reason, with vehicle and severity
* `resolve` : the reason of highest priority; reachability when no vehicle can reach the job
-/
import Leftover.Diagnosis.Record
import Leftover.Diagnosis.Severity
import Leftover.Settings

namespace Leftover

/-- The reason that is shown for a job. -/
structure Resolution (α : Type) where
  code : Reason
  description : Text
  vehicleId : Option Text
  severity : Option α
  deriving DecidableEq

/-- No reason was found. -/
def Resolution.unknown {α : Type} : Resolution α := ⟨.unexplained, Reason.unexplained.description, none, none⟩

variable {α : Type} [Quantity α]

/-- The order in which records of one reason are preferred. -/
def compareCandidate (policy : TieBreak) (fleet : List Text) (a b : Record α) : Ordering :=
  let byFleet := compare (placeIn fleet a.vehicleId) (placeIn fleet b.vehicleId)
  match policy with
  | .fleetOrder => byFleet
  | .nearestMiss => (compareSeverity a.evidence.severity b.evidence.severity).then byFleet

/-- The reason of highest priority among violated records; reachability when no vehicle can reach the
job. -/
def winningCode (e : JobEvaluation α) (first : Record α) (rest : List (Record α)) : Reason :=
  if e.allUnreachable then .reachable
  else (firstLeast (fun a b => compare a.code.rank b.code.rank) first rest).code

/-- The reason that is shown for a job. Records of constraints that are kept do not count. -/
def resolve (policy : TieBreak) (fleet : List Text) (e : JobEvaluation α) : Except Fault (Resolution α) :=
  match e.records.filter fun r => !r.evidence.isSatisfied with
  | [] => .ok .unknown
  | first :: rest =>
    let code := winningCode e first rest
    match (first :: rest).filter (·.code = code) with
    | [] => .error .noCandidate
    | r :: others =>
      let chosen := firstLeast (compareCandidate policy fleet) r others
      .ok ⟨code, code.description, chosen.vehicleId, chosen.evidence.severity⟩

end Leftover
