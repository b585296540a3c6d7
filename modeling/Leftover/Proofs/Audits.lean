/-
# Audits and reports

The routes of a solution are audited before the report on its leftover jobs is made. An audit takes the totals of a
route as reported, and works out those that are not reported on its own. It never stands in the way of a report:
whatever stops an audit also stops the evaluator that the report is made with.

* `Route.WorksOutTo`, `Evaluator.exists_workedOut` : the route that an audit works out is the one that an evaluator holds
* `Evaluator.exists_limitViolations` : an audit goes through whenever an evaluator is built
* `ReportBuilder.build_outcome_of_inTime`, `ReportBuilder.build_of_inTime` : a deadline that does not pass
* `diagnoseBy_transparent` : the same report, with the warnings of the audit before the others
-/
import Leftover.Proofs.Deadline
import Leftover.Proofs.Rearranged

namespace Leftover

variable {α : Type} [Quantity α]

/-! ## Routes that are worked out -/

/-- A route of a vehicle is worked out to the one that is built from the jobs of its stops and the time at which it
starts. -/
def Route.WorksOutTo (p : Problem α) (v : Vehicle α) (r : Route α) (state : RouteState α) : Prop :=
  ∃ jobs m, r.jobIds.mapM p.job = .ok jobs ∧ p.matrixFor v = .ok m ∧ RouteState.build v m jobs r.startTime = .ok state

theorem Route.WorksOutTo.unique {p : Problem α} {v : Vehicle α} {r : Route α} {state state' : RouteState α}
    (worked : r.WorksOutTo p v state) (worked' : r.WorksOutTo p v state') : state = state' := by
  obtain ⟨jobs, m, served, matrix, built⟩ := worked
  obtain ⟨jobs', m', served', matrix', built'⟩ := worked'
  obtain rfl := Except.ok.inj (served.symm.trans served')
  obtain rfl := Except.ok.inj (matrix.symm.trans matrix')
  exact Except.ok.inj (built.symm.trans built')

/-- Every item of a list that is related to another one, item by item, is related to one of its items. -/
theorem exists_of_forall₂ {β γ : Type} {R : β → γ → Prop} {xs : List β} {ys : List γ} (related : List.Forall₂ R xs ys)
    {x : β} (member : x ∈ xs) : ∃ y ∈ ys, R x y := by
  induction related with
  | nil => exact absurd member (by simp)
  | @cons first y _ _ head _ ih =>
    rcases List.mem_cons.mp member with rfl | member
    · exact ⟨y, by simp, head⟩
    · obtain ⟨y', listed, found⟩ := ih member
      exact ⟨y', List.mem_cons_of_mem _ listed, found⟩

/-- What an evaluator holds for the vehicle of a route is what the route is worked out to, and nothing else. -/
theorem Evaluator.exists_workedOut {p : Problem α} {s : Solution α} {catalog : Catalog} {settings : DiagnosisSettings α}
    {e : Evaluator α} (built : (Evaluator.build p s catalog settings).outcome = .ok e) {r : Route α}
    (listed : r ∈ s.routes) : ∃ v, p.vehicle r.vehicleId = .ok v ∧ ∃ state ∈ e.states, r.WorksOutTo p v state
      ∧ ∀ other ∈ e.states, other.vehicle = v → other = state := by
  obtain ⟨valid, states, prepared, rfl⟩ := Evaluator.build_eq_ok.mp built
  obtain ⟨known, distinct, -⟩ := checkRoutes_eq_ok.mp valid
  obtain ⟨v, driver⟩ := known r listed
  obtain ⟨member, same_id⟩ := Problem.of_vehicle_eq_ok driver
  -- the route of the vehicle that the evaluator holds is made from the same jobs, matrix and start
  have own : s.routeFor? v.id = some r := by
    rw [same_id]
    exact find?_key_eq_some distinct listed
  have routes := prepare_eq_ok.mp prepared
  obtain ⟨state, held, route⟩ := exists_of_forall₂ routes member
  obtain ⟨jobs, m, served, matrix, walked⟩ := currentRoute_eq_ok.mp (routeOf_eq_ok.mp route).1
  rw [own] at served walked
  refine ⟨v, driver, state, held, ⟨jobs, m, served, matrix, walked⟩, fun other held' same => ?_⟩
  obtain ⟨w, -, route'⟩ := exists_of_forall₂ routes.flip held'
  have same_vehicle : w = v := (vehicle_of_routeOf route').symm.trans same
  rw [same_vehicle] at route'
  exact Except.ok.inj (route'.symm.trans route)

/-! ## Audits -/

/-- Totals are found for a route that can be worked out. -/
theorem exists_routeTotals {p : Problem α} {v : Vehicle α} {r : Route α} {state : RouteState α}
    (worked : r.WorksOutTo p v state) : ∃ totals, routeTotals p v r = .ok totals := by
  obtain ⟨jobs, m, served, matrix, built⟩ := worked
  unfold routeTotals
  split
  · exact ⟨_, rfl⟩
  · rw [served, except_ok_bind, matrix, except_ok_bind, built]
    exact ⟨_, rfl⟩

theorem exists_routeViolations {p : Problem α} {v : Vehicle α} {r : Route α} {totals : α × α}
    (driver : p.vehicle r.vehicleId = .ok v) (found : routeTotals p v r = .ok totals) :
    ∃ violations, routeViolations p r = .ok violations := by
  rw [routeViolations, driver, except_ok_bind, found]
  exact ⟨_, rfl⟩

/-- An audit goes through whenever an evaluator is built on the solution, whatever it checks. -/
theorem Evaluator.exists_limitViolations {p : Problem α} {s : Solution α} {catalog : Catalog}
    {settings : DiagnosisSettings α} {e : Evaluator α} (built : (Evaluator.build p s catalog settings).outcome = .ok e) :
    ∃ violations, limitViolations p s = .ok violations := by
  have each : ∀ r ∈ s.routes, ∃ violations, routeViolations p r = .ok violations := by
    intro r listed
    obtain ⟨v, driver, state, -, worked, -⟩ := Evaluator.exists_workedOut built listed
    obtain ⟨totals, found⟩ := exists_routeTotals worked
    exact exists_routeViolations driver found
  obtain ⟨lists, all⟩ := exists_mapM_iff.mpr each
  refine ⟨lists.flatten, ?_⟩
  rw [limitViolations, all]
  rfl

theorem audit_of_ok {p : Problem α} {s : Solution α} {violations : List (LimitViolation α)}
    (found : limitViolations p s = .ok violations) :
    (audit p s).outcome = .ok violations ∧ (audit p s).warnings
      = violations.map .limit ++ if violations.isEmpty then [] else [.limitCount violations.length] := by
  rw [audit, found]
  exact ⟨rfl, by simp [Observed.warnings_bind]⟩

/-! ## Deadlines that do not pass -/

/-- The deadline, if there is one, does not pass before it is the turn of any vehicle for any leftover job. -/
def InTime (timer : Option (Timer α)) (p : Problem α) (s : Solution α) : Prop :=
  ∀ id ∈ s.unassigned, ∀ k < p.fleet.length, isLate timer id k = false

theorem inTime_none (p : Problem α) (s : Solution α) : InTime none p s := fun _ _ _ _ => rfl

namespace ReportBuilder

variable [Plane α] {b : ReportBuilder α} {s : Solution α} {timer timer' : Option (Timer α)}
  (vehicles : b.evaluator.states.length = b.evaluator.problem.fleet.length)
  (inTime : InTime timer b.evaluator.problem s) (inTime' : InTime timer' b.evaluator.problem s)

include vehicles inTime inTime'

/-- The entry and the warnings of a leftover job are the same under any two deadlines that do not pass. -/
theorem explain_of_inTime {jobs : List (Job α)} (found : (leftoverJobs b.evaluator.problem s).outcome = .ok jobs) :
    ∀ job ∈ jobs, b.explain (isLate timer job.id) job = b.explain (isLate timer' job.id) job := by
  intro job listed
  have left := id_mem_unassigned found listed
  rw [explain_of_onTime fun k inside => inTime job.id left k (vehicles ▸ inside),
    explain_of_onTime fun k inside => inTime' job.id left k (vehicles ▸ inside)]

/-- A report is the same under any two deadlines that do not pass, in whatever order the workers go about the jobs. -/
theorem build_outcome_of_inTime (plan plan' : b.Plan) :
    (b.build s timer plan).outcome = (b.build s timer' plan').outcome := by
  rw [build_outcome, build_outcome]
  cases found : (leftoverJobs b.evaluator.problem s).outcome with
  | error fault => rw [except_map_error, except_map_error]
  | ok jobs =>
    have same := explain_of_inTime vehicles inTime inTime' found
    rw [except_map_ok, except_map_ok, List.map_congr_left fun job listed => congrArg Prod.snd (same job listed)]

/-- With one worker the warnings of a report are the same, too. -/
theorem build_of_inTime (alone : b.maxWorkers ≤ 1) (plan plan' : b.Plan) :
    b.build s timer plan = b.build s timer' plan' := by
  refine Observed.bind_congr fun jobs found => ?_
  have same : b.explainAll timer plan jobs = b.explainAll timer' plan' jobs := by
    rw [explainAll, explainAll, if_pos (.inl alone), if_pos (.inl alone),
      List.map_congr_left (explain_of_inTime vehicles inTime inTime' found)]
  rw [same]

end ReportBuilder

/-! ## Reports -/

variable [Plane α]

/-- The report on the leftover jobs of a solution, with the workers going about them by some plan. -/
def reportBy (plan : (b : ReportBuilder α) → b.Plan) (settings : DiagnosisSettings α) (p : Problem α) (s : Solution α)
    (timer : Option (Timer α)) : Observed α (Report α) := do
  let e ← Evaluator.build p s (.without settings.disabled) settings
  e.builder.build e.solution timer (plan e.builder)

/-- An audit of the routes of a solution, and the report by some plan. -/
def diagnoseBy (plan : (b : ReportBuilder α) → b.Plan) (settings : DiagnosisSettings α) (p : Problem α) (s : Solution α)
    (timer : Option (Timer α)) : Observed α (Report α) := do
  let _ ← audit p s
  reportBy plan settings p s timer

theorem reportBy_inTurn : @reportBy α _ _ ReportBuilder.inTurn = reportOn := by
  funext settings p s timer
  rw [reportOn, Evaluator.buildFor_without]
  rfl

theorem diagnoseBy_inTurn : @diagnoseBy α _ _ ReportBuilder.inTurn = diagnose := by
  funext settings p s timer
  rw [diagnoseBy, reportBy_inTurn, diagnose]

section

variable {settings : DiagnosisSettings α} {p : Problem α} {s : Solution α} {timer timer' : Option (Timer α)}
  (inTime : InTime timer p s) (inTime' : InTime timer' p s) (plan plan' : (b : ReportBuilder α) → b.Plan)

include inTime inTime'

theorem reportBy_outcome :
    (reportBy plan settings p s timer).outcome = (reportBy plan' settings p s timer').outcome := by
  rw [reportBy, reportBy, Observed.outcome_bind, Observed.outcome_bind]
  cases built : (Evaluator.build p s (.without settings.disabled) settings).outcome with
  | error fault => rw [except_error_bind, except_error_bind]
  | ok e =>
    obtain ⟨-, states, prepared, rfl⟩ := Evaluator.build_eq_ok.mp built
    exact ReportBuilder.build_outcome_of_inTime (prepare_eq_ok.mp prepared).length_eq.symm inTime inTime' _ _

theorem reportBy_of_alone (alone : settings.maxWorkers ≤ 1) :
    reportBy plan settings p s timer = reportBy plan' settings p s timer' := by
  refine Observed.bind_congr fun e built => ?_
  obtain ⟨-, states, prepared, rfl⟩ := Evaluator.build_eq_ok.mp built
  exact ReportBuilder.build_of_inTime (prepare_eq_ok.mp prepared).length_eq.symm inTime inTime' alone _ _

/-- Let no deadline pass, neither of a diagnosis nor of a report that is made without an audit. Then the diagnosis gives a
report just when the other one does, and the same, in whatever order the workers go about the jobs. The limits that are
exceeded are found whenever there is a report; and with one worker the warnings of the diagnosis are one for each of
these limits, one for their number if there are any, and then those that come without an audit. -/
theorem diagnoseBy_transparent :
    (∀ report, (diagnoseBy plan settings p s timer).outcome = .ok report
        ↔ (reportBy plan' settings p s timer').outcome = .ok report)
      ∧ ∀ report, (reportBy plan' settings p s timer').outcome = .ok report →
        ∃ violations, limitViolations p s = .ok violations
          ∧ (settings.maxWorkers ≤ 1 → (diagnoseBy plan settings p s timer).warnings
            = violations.map .limit ++ (if violations.isEmpty then [] else [.limitCount violations.length])
              ++ (reportBy plan' settings p s timer').warnings) := by
  have same : (reportBy plan settings p s timer).outcome = (reportBy plan' settings p s timer').outcome :=
    reportBy_outcome inTime inTime' plan plan'
  have audited : ∀ report, (reportBy plan' settings p s timer').outcome = .ok report →
      ∃ violations, limitViolations p s = .ok violations := by
    intro report made
    rw [reportBy, Observed.outcome_bind] at made
    obtain ⟨e, built, -⟩ := except_bind_eq_ok.mp made
    exact Evaluator.exists_limitViolations built
  refine ⟨fun report => ⟨fun made => ?_, fun made => ?_⟩, fun report made => ?_⟩
  · rw [diagnoseBy, Observed.outcome_bind] at made
    obtain ⟨-, -, made⟩ := except_bind_eq_ok.mp made
    exact same.symm.trans made
  · obtain ⟨violations, found⟩ := audited report made
    rw [diagnoseBy, Observed.outcome_bind, (audit_of_ok found).1, except_ok_bind, same]
    exact made
  · obtain ⟨violations, found⟩ := audited report made
    refine ⟨violations, found, fun alone => ?_⟩
    rw [diagnoseBy, Observed.warnings_bind (audit_of_ok found).1, (audit_of_ok found).2,
      reportBy_of_alone inTime inTime' plan plan' alone]

end

/-- The text of the warning for a limit is that of the violation. -/
example (violation : LimitViolation Float) : (Warning.limit violation).message = violation.message := rfl

/-! ### The shuttle -/

/-- The shuttle reports more meters than it may drive, and does not report its minutes. -/
def farSolution : Solution Exact :=
  { shuttleSolution with routes := [⟨"shuttle", none, [.bare "a"], some (.finite 100), none⟩] }

/-- A clock that reads one, well before the deadline. -/
def earlyClock : Timer Exact := ⟨.finite 5, fun _ _ => .finite 1⟩

/-- The evaluator of that solution, with all checks. -/
def farEvaluator : Evaluator Exact := { shuttleEvaluator with solution := farSolution }

theorem build_farEvaluator : (Evaluator.build shuttlePlan farSolution (.without []) {}).outcome = .ok farEvaluator := by
  -- totals play no part in the route of the shuttle
  have route : routeOf shuttlePlan farSolution RouteState.shuttle = .ok RouteState.shuttleRoute := routeOf_shuttle
  rw [Evaluator.build_eq_ok]
  exact ⟨by decide +kernel, [RouteState.shuttleRoute], prepare_eq_ok.mpr (.cons route .nil), rfl⟩

/-- The minutes are worked out, so that only the limit on meters is found to be exceeded. -/
theorem limitViolations_far : limitViolations shuttlePlan farSolution
    = .ok [⟨"shuttle", .distance, .finite 90, .finite 100⟩] := by
  have totals : routeTotals shuttlePlan RouteState.shuttle ⟨"shuttle", none, [.bare "a"], some (.finite 100), none⟩
      = .ok (.finite 100, .finite 19) := by
    have served : (["a"] : List Text).mapM shuttlePlan.job = .ok [RouteState.parcel "a"] := by decide +kernel
    have known : shuttlePlan.matrixFor RouteState.shuttle = .ok RouteState.twoPlaces := by decide +kernel
    show ((["a"] : List Text).mapM shuttlePlan.job >>= _) = _
    rw [served, except_ok_bind, known, except_ok_bind, RouteState.build_shuttleRoute]
    decide +kernel
  have violations : routeViolations shuttlePlan ⟨"shuttle", none, [.bare "a"], some (.finite 100), none⟩
      = .ok [⟨"shuttle", .distance, .finite 90, .finite 100⟩] := by
    show (Except.ok RouteState.shuttle >>= _) = _
    rw [except_ok_bind, totals]
    decide +kernel
  show (List.mapM _ [_] >>= _) = _
  rw [List.mapM_cons, violations]
  rfl

theorem diagnoseBy_transparent_shuttle :
    InTime (some earlyClock) shuttlePlan farSolution ∧ InTime none shuttlePlan farSolution
      ∧ ∃ report, (reportOn {} shuttlePlan farSolution none).outcome = .ok report
        ∧ (diagnose {} shuttlePlan farSolution (some earlyClock)).outcome = .ok report
        ∧ (diagnose {} shuttlePlan farSolution (some earlyClock)).warnings
          = [.limit ⟨"shuttle", .distance, .finite 90, .finite 100⟩, .limitCount 1]
            ++ (reportOn {} shuttlePlan farSolution none).warnings := by
  have inTime : InTime (some earlyClock) shuttlePlan farSolution := by
    intro id _ k _
    show decide ((.finite 5 : Exact) < .finite 1) = false
    decide +kernel
  have found : (leftoverJobs shuttlePlan farSolution).outcome = .ok [RouteState.parcel "b", RouteState.parcel "c"] := by
    rw [leftoverJobs_eq_ok (by decide)]
    decide +kernel
  obtain ⟨report, made⟩ : ∃ report, (reportOn {} shuttlePlan farSolution none).outcome = .ok report := by
    rw [reportOn, Observed.outcome_bind]
    exact ⟨_, except_bind_eq_ok.mpr ⟨farEvaluator, build_farEvaluator, ReportBuilder.build_eq_ok.mpr ⟨_, found, rfl⟩⟩⟩
  obtain ⟨same, audited⟩ := @diagnoseBy_transparent Exact _ _ {} shuttlePlan farSolution _ _ inTime (inTime_none _ _)
    ReportBuilder.inTurn ReportBuilder.inTurn
  rw [diagnoseBy_inTurn, reportBy_inTurn] at same audited
  obtain ⟨violations, exceeded, warnings⟩ := audited report made
  obtain rfl := Except.ok.inj (exceeded.symm.trans limitViolations_far)
  exact ⟨inTime, inTime_none _ _, report, made, (same report).mpr made, warnings (by decide)⟩

end Leftover
