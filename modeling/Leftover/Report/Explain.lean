/-
# Diagnosis

The reason for every job that a solution leaves over.

* `leftoverJobs` : the leftover jobs, in the order of the problem
* `ReportBuilder.explain` : the entry of one job; it never fails
* `ReportBuilder.build` : the entries of all leftover jobs, whoever works on them
* `diagnose` : an audit of the routes, then the report
-/
import Leftover.Diagnosis.Evaluator
import Leftover.Report.Entries
import Leftover.Report.Workers

namespace Leftover

variable {α : Type} [Quantity α] [Plane α]

/-! ## Deadlines -/

/-- A deadline, and the clock: what it reads when it is the turn of the vehicle at a place of the fleet for
a job. -/
structure Timer (α : Type) where
  deadline : α
  reading : Text → Nat → α

/-- The deadline has passed when it is the turn of a vehicle for a job; without a deadline it never has. -/
def isLate (timer : Option (Timer α)) (jobId : Text) (vehicle : Nat) : Bool :=
  match timer with
  | none => false
  | some t => decide (t.deadline < t.reading jobId vehicle)

/-! ## Leftover jobs -/

/-- The vehicle and the jobs of a route exist. -/
def checkRoute (p : Problem α) (r : Route α) : Except Fault Unit := do
  let _ ← p.vehicle r.vehicleId
  r.jobIds.forM fun id => do
    let _ ← p.job id

/-- The vehicle of a hint exists, if it has one. -/
def checkHint (p : Problem α) (h : Hint α) : Except Fault Unit :=
  match h.vehicleId with
  | none => .ok ()
  | some id => do
    let _ ← p.vehicle id

/-- Everything that a solution names exists. -/
def checkReferences (p : Problem α) (s : Solution α) : Except Fault Unit := do
  s.routes.forM (checkRoute p)
  (s.hints.flatMap (·.2)).forM (checkHint p)
  s.unassigned.forM fun id => do
    let _ ← p.job id

/-- The leftover ids, each once, in the order in which they are listed. -/
def distinctLeftovers (s : Solution α) : List Text := s.unassigned.eraseDups

/-- A warning if leftover ids are listed again. -/
def duplicateWarnings (s : Solution α) : List (Warning α) :=
  let n := s.unassigned.length - (distinctLeftovers s).length
  if n = 0 then [] else [.duplicates n]

/-- No leftover job is served by a route. -/
def checkUnrouted (s : Solution α) : Except Fault Unit :=
  let both := (distinctLeftovers s).filter s.isRouted
  if both.isEmpty then .ok () else .error (.routedAndLeft both)

/-- The leftover ids of a solution, each once, in the order of the problem. -/
def leftoverIds (p : Problem α) (s : Solution α) : Observed α (List Text) := do
  .ofExcept (checkReferences p s)
  .warn (duplicateWarnings s)
  .ofExcept (checkUnrouted s)
  return (distinctLeftovers s).mergeSort fun id id' => p.jobPlace id ≤ p.jobPlace id'

/-- The leftover jobs of a solution. -/
def leftoverJobs (p : Problem α) (s : Solution α) : Observed α (List (Job α)) := do
  let ids ← leftoverIds p s
  .ofExcept (ids.mapM p.job)

/-! ## Entries -/

/-- The warning that a fault leaves behind when it stops the evaluation of a job. -/
def faultWarning (jobId : Text) : Fault → Warning α
  | .interrupted _ => .interrupted jobId
  | _ => .failed jobId

/-- What a report is made with: an evaluator, the way in which the vehicle shown for a reason is picked, and the
number of workers asked for. -/
structure ReportBuilder (α : Type) [Quantity α] where
  evaluator : Evaluator α
  tieBreak : TieBreak
  maxWorkers : Int

/-- The builder that an evaluator's settings ask for. -/
def Evaluator.builder (e : Evaluator α) : ReportBuilder α := ⟨e, e.settings.tieBreak, e.settings.maxWorkers⟩

namespace ReportBuilder

/-- The evaluation of a job and the reason that it gives. -/
def resolution (b : ReportBuilder α) (late : Nat → Bool) (job : Job α) : Observed α (Resolution α) := do
  let evaluation ← b.evaluator.evaluate late job
  .ofExcept (resolve b.tieBreak b.evaluator.problem.fleetIds evaluation)

/-- The entry of a job, with warnings. A job whose evaluation is stopped has no reason. -/
def explain (b : ReportBuilder α) (late : Nat → Bool) (job : Job α) : List (Warning α) × Entry α :=
  let found := b.resolution late job
  match found.outcome with
  | .ok r => (found.warnings, .ofResolution job.id r)
  | .error fault => (found.warnings ++ [faultWarning job.id fault], .ofResolution job.id .unknown)

/-! ## Workers -/

/-- The number of workers, at least one. -/
def workers (b : ReportBuilder α) : Nat := max 1 b.maxWorkers.toNat

omit [Plane α] in
theorem workers_pos (b : ReportBuilder α) : 0 < b.workers := by
  rw [workers]
  omega

/-- One way in which the workers can go about any number of jobs. -/
abbrev Plan (b : ReportBuilder α) : Type := (tasks : Nat) → Roster b.workers tasks

/-- The workers go about the jobs one after the other. -/
def inTurn (b : ReportBuilder α) : b.Plan := Roster.inTurn b.workers_pos

/-- What the workers hand in, in the order in which they are done. -/
def handedIn (b : ReportBuilder α) (timer : Option (Timer α)) (jobs : List (Job α)) (done : List Nat) :
    List (Nat × (List (Warning α) × Entry α)) :=
  done.filterMap fun k => (jobs[k]?).map fun job => (k, b.explain (isLate timer job.id) job)

/-- The entries of jobs, with warnings. A pool of workers is only asked if there is more than one job and more than
one worker. -/
def explainAll (b : ReportBuilder α) (timer : Option (Timer α)) (plan : b.Plan) (jobs : List (Job α)) :
    List (Warning α) × List (Entry α) :=
  if b.maxWorkers ≤ 1 ∨ jobs.length ≤ 1 then
    let explained := jobs.map fun job => b.explain (isLate timer job.id) job
    (explained.flatMap (·.1), explained.map (·.2))
  else
    let results := b.handedIn timer jobs (plan jobs.length).last.done
    (results.flatMap (·.2.1), (gather jobs.length results).filterMap fun place => place.map (·.2))

/-- The report on the leftover jobs of a solution. -/
def build (b : ReportBuilder α) (s : Solution α) (timer : Option (Timer α)) (plan : b.Plan) :
    Observed α (Report α) := do
  let jobs ← leftoverJobs b.evaluator.problem s
  let (warnings, entries) := b.explainAll timer plan jobs
  .warn warnings
  return ⟨entries⟩

end ReportBuilder

/-- The report on the leftover jobs of the evaluator's solution. -/
def Evaluator.report (e : Evaluator α) (timer : Option (Timer α)) : Observed α (Report α) :=
  e.builder.build e.solution timer e.builder.inTurn

/-! ## Reports -/

/-- The report on the leftover jobs of a solution. -/
def reportOn (settings : DiagnosisSettings α) (p : Problem α) (s : Solution α) (timer : Option (Timer α)) :
    Observed α (Report α) := do
  let e ← Evaluator.buildFor p s (some (.without settings.disabled)) settings
  e.report timer

/-- An audit of the routes of a solution, and the report on its leftover jobs. -/
def diagnose (settings : DiagnosisSettings α) (p : Problem α) (s : Solution α) (timer : Option (Timer α)) :
    Observed α (Report α) := do
  let _ ← audit p s
  reportOn settings p s timer

/-- The fields of a solution document that a report takes the place of. -/
def replacedFields : List Text := ["unassigned", "search_violations"]

/-- A solution document with the report in place of the leftover jobs and hints. -/
def attachedDocument (solution : Json) (r : Report α) : Json :=
  match solution with
  | .record fields =>
    .record ((fields.filter fun f => !replacedFields.contains f.1).concat ("unassigned", r.fragment))
  | other => other

end Leftover
