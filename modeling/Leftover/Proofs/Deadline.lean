/-
# Deadlines

A deadline can pass before any vehicle of any job. The evaluation of that job is then stopped and no reason is shown
for it, whatever was found out about the vehicles before. All other jobs are explained as if there were no deadline.

* `Timer.cutShort` : the entry of a job under a deadline
* `Evaluator.evaluateFrom_of_onTime`, `Evaluator.evaluateFrom_of_late` : the vehicles of a job, in time and too late
* `ReportBuilder.explain_timed` : the entry of one job
* `ReportBuilder.build_timed` : the entries of all leftover jobs
-/
import Leftover.Proofs.Reasons

namespace Leftover

variable {α : Type} [Quantity α] [Plane α]

/-! ## Vehicles of a job -/

namespace Evaluator

variable (e : Evaluator α) {late : Nat → Bool} (job : Job α)

/-- A deadline that does not pass changes nothing. -/
theorem evaluateFrom_of_onTime {k : Nat} {states : List (RouteState α)}
    (onTime : ∀ j < states.length, late (k + j) = false) :
    e.evaluateFrom late job k states = e.evaluateFrom (fun _ => false) job k states := by
  induction states generalizing k with
  | nil => rfl
  | cons state rest ih =>
    have now : late k = false := onTime 0 (by simp)
    have later : e.evaluateFrom late job (k + 1) rest = e.evaluateFrom (fun _ => false) job (k + 1) rest := by
      refine ih fun j inside => ?_
      rw [Nat.add_assoc, Nat.add_comm 1 j]
      exact onTime (j + 1) (by simpa using inside)
    rw [evaluateFrom, evaluateFrom, now, later]

/-- If the deadline has passed when it is the turn of some vehicle, the evaluation is stopped, there or before. -/
theorem evaluateFrom_of_late {k : Nat} {states : List (RouteState α)}
    (passed : ∃ j < states.length, late (k + j) = true) :
    ∃ fault, (e.evaluateFrom late job k states).outcome = .error fault := by
  induction states generalizing k with
  | nil =>
    obtain ⟨j, inside, -⟩ := passed
    exact absurd inside (by simp)
  | cons state rest ih =>
    cases now : late k with
    | true =>
      refine ⟨.interrupted job.id, ?_⟩
      simp [evaluateFrom, now]
    | false =>
      -- the deadline passes before one of the other vehicles
      obtain ⟨j, inside, passed⟩ := passed
      have positive : j ≠ 0 := by
        rintro rfl
        rw [Nat.add_zero, now] at passed
        exact absurd passed (by simp)
      obtain ⟨i, rfl⟩ := Nat.exists_eq_succ_of_ne_zero positive
      obtain ⟨fault, stopped⟩ : ∃ fault, (e.evaluateFrom late job (k + 1) rest).outcome = .error fault := by
        refine ih ⟨i, by simpa using inside, ?_⟩
        rw [Nat.add_assoc, Nat.add_comm 1 i]
        exact passed
      cases found : (e.evaluateVehicle job state).outcome with
      | error fault' => exact ⟨fault', by simp [evaluateFrom, now, found]⟩
      | ok out => exact ⟨fault, by simp [evaluateFrom, now, found, stopped]⟩

theorem evaluate_of_onTime (onTime : ∀ j < e.states.length, late j = false) :
    e.evaluate late job = e.evaluate (fun _ => false) job := by
  have same : e.evaluateFrom late job 0 e.states = e.evaluateFrom (fun _ => false) job 0 e.states := by
    refine e.evaluateFrom_of_onTime job fun j inside => ?_
    rw [Nat.zero_add]
    exact onTime j inside
  rw [evaluate, evaluate, same]

theorem evaluate_of_late (passed : ∃ j < e.states.length, late j = true) :
    ∃ fault, (e.evaluate late job).outcome = .error fault := by
  obtain ⟨fault, stopped⟩ : ∃ fault, (e.evaluateFrom late job 0 e.states).outcome = .error fault := by
    refine e.evaluateFrom_of_late job ?_
    simpa using passed
  exact ⟨fault, by simp [evaluate, stopped]⟩

end Evaluator

/-! ## Entries -/

/-- The entry that shows no reason for a job, and neither a vehicle nor a severity. -/
def Entry.unexplained (jobId : Text) : Entry α := ⟨jobId, .unexplained, "unknown", none, none⟩

/-- The entry of a job under a deadline, for so many vehicles: no reason if the deadline has passed when it is the turn
of one of them. -/
def Timer.cutShort (t : Timer α) (vehicles : Nat) (entry : Entry α) : Entry α :=
  if ∃ k < vehicles, t.deadline < t.reading entry.jobId k then .unexplained entry.jobId else entry

namespace ReportBuilder

variable {b : ReportBuilder α} {job : Job α}

/-- A job whose evaluation is stopped has no reason. -/
theorem explain_of_error {late : Nat → Bool} {fault : Fault}
    (stopped : (b.evaluator.evaluate late job).outcome = .error fault) :
    (b.explain late job).2 = .unexplained job.id := by
  have failed : (b.resolution late job).outcome = .error fault := by simp [resolution, stopped]
  rw [explain, failed]
  rfl

/-- The entry of a job whose evaluation is resolved shows the reason that is found. -/
theorem explain_of_resolved {late : Nat → Bool} {evaluation : JobEvaluation α} {shown : Resolution α}
    (evaluated : (b.evaluator.evaluate late job).outcome = .ok evaluation)
    (resolved : resolve b.tieBreak b.evaluator.problem.fleetIds evaluation = .ok shown) :
    (b.explain late job).2 = .ofResolution job.id shown := by
  have found : (b.resolution late job).outcome = .ok shown := by simp [resolution, evaluated, resolved]
  rw [explain, found]

/-- A deadline that does not pass for a job changes nothing about its entry or its warnings. -/
theorem explain_of_onTime {late : Nat → Bool} (onTime : ∀ k < b.evaluator.states.length, late k = false) :
    b.explain late job = b.explain (fun _ => false) job := by
  have same : b.resolution late job = b.resolution (fun _ => false) job := by
    rw [resolution, resolution, b.evaluator.evaluate_of_onTime job onTime]
  rw [explain, explain, same]

/-- The entry of a job under a deadline is that without one, or shows no reason. -/
theorem explain_timed (t : Timer α) :
    (b.explain (isLate (some t) job.id) job).2
      = t.cutShort b.evaluator.states.length (b.explain (fun _ => false) job).2 := by
  rw [Timer.cutShort, explain_jobId]
  split
  · rename_i passed
    obtain ⟨k, inside, passed⟩ := passed
    obtain ⟨fault, stopped⟩ := b.evaluator.evaluate_of_late job
      ⟨k, inside, show isLate (some t) job.id k = true from decide_eq_true passed⟩
    exact explain_of_error stopped
  · rename_i in_time
    have onTime : ∀ k < b.evaluator.states.length, isLate (some t) job.id k = false :=
      fun k inside => decide_eq_false fun passed => in_time ⟨k, inside, passed⟩
    rw [explain_of_onTime onTime]

/-- A report is on the leftover jobs in the order of the problem, under a deadline or not. -/
theorem jobIds_of_build {b : ReportBuilder α} {s : Solution α} (distinct : (b.evaluator.problem.jobs.map (·.id)).Nodup)
    {timer : Option (Timer α)} {plan : b.Plan} {report : Report α}
    (made : (b.build s timer plan).outcome = .ok report) :
    report.jobIds = (b.evaluator.problem.jobs.map (·.id)).filter s.unassigned.contains := by
  obtain ⟨jobs, found, rfl⟩ := build_eq_ok.mp made
  obtain ⟨-, -, rfl⟩ := (leftoverJobs_eq_ok distinct).mp found
  rw [Report.jobIds, List.map_map, List.filter_map]
  exact List.map_congr_left fun job _ => explain_jobId b _ job

/-- For a problem with distinct job ids, and an evaluator built on a solution: whatever the clock reads before each
vehicle of each job, and in whatever order the workers go about the jobs, a report under a deadline is made whenever one
is made without, on the same jobs in the same order, those that are left over. The entry of a job shows no reason if
some reading for it is after the deadline, and is otherwise the same as without. -/
theorem build_timed {p : Problem α} {s : Solution α} {catalog : Catalog} {settings : DiagnosisSettings α}
    {e : Evaluator α} (distinct : (p.jobs.map (·.id)).Nodup)
    (built : (Evaluator.build p s catalog settings).outcome = .ok e) (tieBreak : TieBreak) (maxWorkers : Int)
    (t : Timer α) (plan plan' : Plan ⟨e, tieBreak, maxWorkers⟩) :
    (build ⟨e, tieBreak, maxWorkers⟩ s (some t) plan).outcome
        = (build ⟨e, tieBreak, maxWorkers⟩ s none plan').outcome.map
          (fun report => ⟨report.entries.map (t.cutShort p.fleet.length)⟩)
      ∧ ∀ report, (build ⟨e, tieBreak, maxWorkers⟩ s (some t) plan).outcome = .ok report →
        report.jobIds = (p.jobs.map (·.id)).filter s.unassigned.contains := by
  obtain ⟨-, states, prepared, rfl⟩ := Evaluator.build_eq_ok.mp built
  have vehicles : states.length = p.fleet.length := (prepare_eq_ok.mp prepared).length_eq.symm
  have entries : (build ⟨⟨p, s, catalog, settings, states⟩, tieBreak, maxWorkers⟩ s (some t) plan).outcome
      = (build ⟨⟨p, s, catalog, settings, states⟩, tieBreak, maxWorkers⟩ s none plan').outcome.map
        (fun report => ⟨report.entries.map (t.cutShort p.fleet.length)⟩) := by
    rw [build_outcome, build_outcome]
    cases (leftoverJobs p s).outcome with
    | error fault => rfl
    | ok jobs =>
      simp only [except_map_ok, List.map_map]
      congr 2
      apply List.map_congr_left
      intro job _
      rw [explain_timed, vehicles]
      rfl
  exact ⟨entries, fun report made => jobIds_of_build distinct made⟩

end ReportBuilder

/-! ### A van and a spare one -/

/-- A second van. -/
def spare : Vehicle Exact := { Evaluator.van with id := "spare" }

/-- Three jobs for two vans. -/
def spareVanPlan : Problem Exact :=
  { Evaluator.vanPlan with jobs := [Evaluator.drop, Evaluator.lift, Evaluator.crate], fleet := [Evaluator.van, spare] }

/-- The first van makes a delivery, the second one does nothing, and two jobs are left over. -/
def spareVanSolution : Solution Exact := { Evaluator.vanSolution with unassigned := ["crate", "lift"], hints := [] }

/-- The route of the second van, without stops. -/
def spareRoute : RouteState Exact where
  vehicle := spare
  matrix := RouteState.twoPlaces
  jobs := []
  origin := ⟨0, 0, 0⟩
  base := ⟨[], 0, 0, 0, true⟩
  walk_eq := by decide +kernel

theorem build_spareRoute : RouteState.build spare RouteState.twoPlaces [] none = .ok spareRoute :=
  RouteState.build_eq_of_walk rfl spareRoute.walk_eq

/-- The evaluator of that solution, with all checks. -/
def spareVanEvaluator : Evaluator Exact where
  problem := spareVanPlan
  solution := spareVanSolution
  catalog := .without []
  settings := {}
  states := [Evaluator.vanRoute, spareRoute]

theorem build_spareVanEvaluator :
    (Evaluator.build spareVanPlan spareVanSolution (.without []) {}).outcome = .ok spareVanEvaluator := by
  have current : currentRoute spareVanPlan spareVanSolution Evaluator.van = .ok Evaluator.vanRoute :=
    Evaluator.build_vanRoute
  have current' : currentRoute spareVanPlan spareVanSolution spare = .ok spareRoute := build_spareRoute
  have route := routeOf_eq_ok.mpr ⟨current, fun _ => ⟨rfl, rfl⟩⟩
  have route' := routeOf_eq_ok.mpr ⟨current', fun _ => ⟨rfl, rfl⟩⟩
  rw [Evaluator.build_eq_ok]
  exact ⟨by decide +kernel, [Evaluator.vanRoute, spareRoute], prepare_eq_ok.mpr (.cons route (.cons route' .nil)), rfl⟩

/-- A clock by which the deadline passes for one of the two jobs, between the first and the second van. -/
def lateClock : Timer Exact where
  deadline := .finite 5
  reading jobId vehicle := if jobId = "lift" ∧ vehicle = 1 then .finite 6 else .finite 1

/-- The entry of the other job. -/
def crateEntry : Entry Exact := ⟨"crate", .capacity, Reason.capacity.description, some "spare", some (.finite 10)⟩

theorem build_timed_spare :
    (spareVanPlan.jobs.map (·.id)).Nodup
      ∧ (Evaluator.build spareVanPlan spareVanSolution (.without []) {}).outcome = .ok spareVanEvaluator
      ∧ (ReportBuilder.build ⟨spareVanEvaluator, .nearestMiss, 2⟩ spareVanSolution none
          (ReportBuilder.inTurn _)).outcome
        = .ok ⟨[⟨"lift", .locking, Reason.locking.description, some "van", none⟩, crateEntry]⟩
      ∧ ∀ plan, (ReportBuilder.build ⟨spareVanEvaluator, .nearestMiss, 2⟩ spareVanSolution (some lateClock)
          plan).outcome
        = .ok ⟨[.unexplained "lift", crateEntry]⟩ := by
  have distinct : (spareVanPlan.jobs.map (·.id)).Nodup := by decide
  have found : (leftoverJobs spareVanPlan spareVanSolution).outcome = .ok [Evaluator.lift, Evaluator.crate] := by
    rw [leftoverJobs_eq_ok distinct]
    decide +kernel
  have made : (ReportBuilder.build ⟨spareVanEvaluator, .nearestMiss, 2⟩ spareVanSolution none
      (ReportBuilder.inTurn _)).outcome
        = .ok ⟨[⟨"lift", .locking, Reason.locking.description, some "van", none⟩, crateEntry]⟩ :=
    ReportBuilder.build_eq_ok.mpr ⟨_, found, by decide +kernel⟩
  refine ⟨distinct, build_spareVanEvaluator, made, fun plan => ?_⟩
  rw [(ReportBuilder.build_timed distinct build_spareVanEvaluator .nearestMiss 2 lateClock plan
    (ReportBuilder.inTurn _)).1, made]
  decide +kernel

end Leftover
