/-
# Warnings

What a diagnosis notes on the way without stopping, and results that come with such notes.

* `Warning` : the notes, with `Warning.message` for their texts
* `Observed` : a result or a fault, with the warnings before it
-/
import Leftover.Audit
import Leftover.Decimal.Shortest

namespace Leftover

/-! ## Warnings -/

/-- The reported figures of a stop. -/
inductive Figure : Type where
  | arrival
  | departure
  | distance
  deriving DecidableEq, Repr

/-- The name of a figure. -/
def Figure.name : Figure → String
  | arrival => "arrival"
  | departure => "departure"
  | distance => "distance"

/-- A note on a problem, its solution, or a job. -/
inductive Warning (α : Type) : Type where
  /-- A route exceeds a limit. -/
  | limit (violation : LimitViolation α)
  /-- So many limits are exceeded. -/
  | limitCount (n : Nat)
  /-- A route holds a leg without a path. -/
  | brokenRoute (vehicleId : Text)
  /-- A reported figure of a stop differs from the one worked out. -/
  | figureDrift (vehicleId jobId : Text) (figure : Figure) (reported workedOut : α)
  /-- The reported load of a stop differs from the one worked out. -/
  | loadDrift (vehicleId jobId : Text) (reported workedOut : List α)
  /-- A constraint cannot be judged. -/
  | notEvaluable (code : Reason) (jobId vehicleId : Text) (position : Int)
  /-- So many leftover jobs are listed again. -/
  | duplicates (n : Nat)
  /-- The deadline passed while a job was evaluated. -/
  | interrupted (jobId : Text)
  /-- The evaluation of a job failed. -/
  | failed (jobId : Text)
  deriving DecidableEq

/-- The text of a load: its amounts in brackets. -/
def loadText (load : List Float) : String := bracketed (load.map shortestText)

/-- The text of a warning. -/
def Warning.message : Warning Float → Text
  | limit violation => violation.message
  | limitCount n => "Solution audit found " ++ toString n ++ " limit violation(s)"
  | brokenRoute vehicleId => "Route of vehicle " ++ vehicleId ++ " contains a leg without a path"
  | figureDrift vehicleId jobId figure reported workedOut =>
    "Vehicle " ++ vehicleId ++ " stop " ++ jobId ++ ": reported " ++ figure.name ++ " " ++ briefText reported
      ++ ", recomputed " ++ briefText workedOut
  | loadDrift vehicleId jobId reported workedOut =>
    "Vehicle " ++ vehicleId ++ " stop " ++ jobId ++ ": reported load " ++ loadText reported
      ++ ", recomputed " ++ loadText workedOut
  | notEvaluable code jobId vehicleId position =>
    code.name ++ " not evaluable for job " ++ jobId ++ " on vehicle " ++ vehicleId ++ " at position "
      ++ toString position
  | duplicates n => "Dropped " ++ toString n ++ " duplicate unassigned job id(s)"
  | interrupted jobId => ((Fault.interrupted jobId).message).getD ""
  | failed jobId => "Evaluation of job " ++ jobId ++ " failed"

/-! ## Results with warnings -/

/-- A result or a fault, with the warnings before it. -/
structure Observed (α β : Type) where
  warnings : List (Warning α)
  outcome : Except Fault β

namespace Observed

variable {α β γ : Type}

/-- A result without warnings. -/
def ofExcept (outcome : Except Fault β) : Observed α β := ⟨[], outcome⟩

/-- Some warnings. -/
def warn (warnings : List (Warning α)) : Observed α Unit := ⟨warnings, .ok ()⟩

/-- A result and what is made of it, with the warnings of both. -/
def andThen (x : Observed α β) (f : β → Observed α γ) : Observed α γ :=
  match x.outcome with
  | .ok b => ⟨x.warnings ++ (f b).warnings, (f b).outcome⟩
  | .error fault => ⟨x.warnings, .error fault⟩

instance : Monad (Observed α) where
  pure b := ⟨[], .ok b⟩
  bind := andThen

end Observed

/-! ## Audits with warnings -/

/-- The exceeded limits of a solution, one warning for each and one for their number. -/
def audit {α : Type} [Quantity α] (p : Problem α) (s : Solution α) : Observed α (List (LimitViolation α)) := do
  let violations ← .ofExcept (limitViolations p s)
  .warn (violations.map .limit)
  .warn (if violations.isEmpty then [] else [.limitCount violations.length])
  return violations

end Leftover
