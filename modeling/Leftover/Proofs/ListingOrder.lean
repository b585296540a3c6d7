/-
# The order in which a plan is listed

A plan lists its jobs, vehicles, relations and routes in some order, the windows of each job and the breaks of each
vehicle too. The order says nothing, and the reasons in a report do not depend on it.

* `Problem.Relisted`, `Problem.Relisted.exists_relisting` : windows, breaks and relations in any order
* `ReportBuilder.explain_congr` : the entry of one job, for evaluators that find the same
* `Reports` : the entries of a report, from the problem on
* `reports_of_order` : the entries of the reports on a plan that is listed in other orders
-/
import Leftover.Proofs.FleetOrder
import Leftover.Proofs.Rearranged
import Leftover.Proofs.RelistedChecks
import Mathlib.Logic.Function.Basic

namespace Leftover

/-! ## Windows, breaks and relations in any order -/

section

variable {α : Type} [Quantity α]

/-- The same job, with its windows in some order. -/
def Job.Relisted (j k : Job α) : Prop := k.windows.Perm j.windows ∧ k = { j with windows := k.windows }

/-- The same vehicle, with its breaks in some order. -/
def Vehicle.Relisted (v w : Vehicle α) : Prop := w.breaks.Perm v.breaks ∧ w = { v with breaks := w.breaks }

/-- The same problem, with the windows of each job, the breaks of each vehicle, and the relations in some order. -/
structure Problem.Relisted (p q : Problem α) : Prop where
  jobs : List.Forall₂ Job.Relisted p.jobs q.jobs
  fleet : List.Forall₂ Vehicle.Relisted p.fleet q.fleet
  relations : q.relations.Perm p.relations
  matrices : q.matrices = p.matrices

/-- The ends of all windows of all jobs are numbers or infinities. -/
def Problem.HasDefinedWindows (p : Problem α) : Prop := ∀ j ∈ p.jobs, ∀ w ∈ j.windows, w.IsDefined

/-- The severities of all hints are numbers or infinities, if there are any. -/
def Solution.HasDefinedHints (s : Solution α) : Prop := ∀ group ∈ s.hints, ∀ h ∈ group.2, IsComparable h.severity

theorem Solution.HasDefinedHints.of_usable {s : Solution α} (defined : s.HasDefinedHints) {e : Evaluator α}
    (given : e.solution = s) {jobId : Text} : ∀ h ∈ e.usableHints jobId, IsComparable h.severity := by
  intro h usable
  rw [Evaluator.usableHints, given] at usable
  split at usable
  · have listed := (List.mem_filter.mp usable).1
    rw [hintsFor] at listed
    cases found : s.hints.find? (·.1 = jobId) with
    | none =>
      rw [found] at listed
      exact absurd listed (by simp)
    | some group =>
      rw [found] at listed
      exact defined group (List.mem_of_find?_eq_some found) h listed
  · exact absurd usable (by simp)

/-- Where different items are related to others, a function tells which. -/
theorem exists_map_of_forall₂ {β : Type} {R : β → β → Prop} {xs ys : List β} (related : List.Forall₂ R xs ys)
    (distinct : xs.Nodup) : ∃ f : β → β, ys = xs.map f ∧ ∀ x ∈ xs, R x (f x) := by
  classical
  induction related with
  | nil => exact ⟨id, rfl, by simp⟩
  | @cons x y xs _ first _ ih =>
    obtain ⟨fresh, distinct⟩ := List.nodup_cons.mp distinct
    obtain ⟨f, rfl, others⟩ := ih distinct
    have elsewhere : ∀ x' ∈ xs, Function.update f x y x' = f x' := fun x' later =>
      Function.update_of_ne (fun same : x' = x => fresh (same ▸ later)) y f
    refine ⟨Function.update f x y, ?_, List.forall_mem_cons.mpr ⟨?_, fun x' later => ?_⟩⟩
    · rw [List.map_cons, Function.update_self, List.map_congr_left elsewhere]
    · rw [Function.update_self]
      exact first
    · rw [elsewhere x' later]
      exact others x' later

/-- Windows and breaks in any order are listed in the other way. -/
theorem Problem.Relisted.exists_relisting {p q : Problem α} (relisted : p.Relisted q)
    (jobs : (p.jobs.map (·.id)).Nodup) (fleet : p.fleetIds.Nodup) (defined : p.HasDefinedWindows) :
    ∃ r : Relisting α, q = r.problem q.relations p := by
  classical
  have vehicles : p.fleet.Nodup := by
    rw [fleetIds] at fleet
    exact fleet.of_map
  obtain ⟨f, q_jobs, f_relisted⟩ := exists_map_of_forall₂ relisted.jobs jobs.of_map
  obtain ⟨g, q_fleet, g_relisted⟩ := exists_map_of_forall₂ relisted.fleet vehicles
  -- jobs and vehicles that are not those of the problem stay as they are
  let windows (j : Job α) : List (Window α) := if j ∈ p.jobs then (f j).windows else j.windows
  let breaks (v : Vehicle α) : List (Break α) := if v ∈ p.fleet then (g v).breaks else v.breaks
  have listed : ∀ j, windows j = j.windows ∨ (windows j).Perm j.windows ∧ ∀ w ∈ j.windows, w.IsDefined := by
    intro j
    by_cases mine : j ∈ p.jobs
    · refine Or.inr ⟨?_, defined j mine⟩
      simp only [windows, if_pos mine]
      exact (f_relisted j mine).1
    · exact Or.inl (if_neg mine)
  have breaks_perm : ∀ v, (breaks v).Perm v.breaks := by
    intro v
    by_cases mine : v ∈ p.fleet
    · simp only [breaks, if_pos mine]
      exact (g_relisted v mine).1
    · simp only [breaks, if_neg mine]
      exact .refl _
  let r : Relisting α := ⟨windows, breaks, listed, breaks_perm⟩
  have same_jobs : p.jobs.map r.job = q.jobs := by
    rw [q_jobs]
    refine List.map_congr_left fun j mine => ?_
    rw [(f_relisted j mine).2]
    show ({ j with windows := windows j } : Job α) = _
    simp only [windows, if_pos mine]
  have same_fleet : p.fleet.map r.vehicle = q.fleet := by
    rw [q_fleet]
    refine List.map_congr_left fun v mine => ?_
    rw [(g_relisted v mine).2]
    show ({ v with breaks := breaks v } : Vehicle α) = _
    simp only [breaks, if_pos mine]
  refine ⟨r, ?_⟩
  rw [Relisting.problem, same_jobs, same_fleet, ← relisted.matrices]

/-! ## Evaluators that find the same -/

variable [Plane α]

/-- What is found for a job and a vehicle does not depend on the order of the relations, of the windows of jobs, and of
the breaks of the vehicle. -/
theorem Evaluator.evaluateVehicle_relisted [SignlessZero α] {r : Relisting α} {e e' : Evaluator α} (alike : e'.Alike e)
    (job : Job α) {t state : RouteState α} (ties : r.StateTies t state) :
    e'.evaluateVehicle (r.job job) t = e.evaluateVehicle job state := by
  have same : (e.attempt (r.job job) t).SameAnswers (e.attempt job state) :=
    { check_eq := fun k c => Relisting.check_insertion (i := (e.attempt job state).insertion k) ties c
      catalog_eq := rfl
      exhaustive_eq := rfl
      jobId_eq := rfl
      vehicleId_eq := by
        show t.vehicle.id = state.vehicle.id
        rw [ties.vehicle]
        rfl
      size_eq := ties.size_eq }
  rw [alike.evaluateVehicle_eq]
  exact same.survey_eq

/-- The entry of a job is the same, with the same warnings, if the outcomes for all vehicles are. -/
theorem ReportBuilder.explain_congr {e e' : Evaluator α} (alike : e'.Alike e)
    (fleet : e'.problem.fleetIds = e.problem.fleetIds) {job job' : Job α} (jobId : job'.id = job.id)
    (surveys : List.Forall₂ (fun t s => e'.evaluateVehicle job' t = e.evaluateVehicle job s) e'.states e.states)
    (late : Nat → Bool) : e'.builder.explain late job' = e.builder.explain late job := by
  have evaluations : e'.evaluate late job' = e.evaluate late job := by
    rw [Evaluator.evaluate, Evaluator.evaluate, Evaluator.evaluateFrom_eq_of_forall₂ jobId surveys,
      alike.collect_eq fleet jobId]
  have resolutions : e'.builder.resolution late job' = e.builder.resolution late job := by
    show (e'.evaluate late job' >>= fun evaluation => .ofExcept (resolve e'.settings.tieBreak e'.problem.fleetIds evaluation))
      = _
    rw [evaluations, alike.settings, fleet]
    rfl
  rw [explain, resolutions, jobId, explain]

/-! ## Reports -/

/-- An evaluator is built on a solution, and without a deadline the report on the leftover jobs has these entries,
whichever workers go about the jobs. -/
def Reports (p : Problem α) (s : Solution α) (catalog : Catalog) (settings : DiagnosisSettings α)
    (entries : List (Entry α)) : Prop :=
  ∃ e, (Evaluator.build p s catalog settings).outcome = .ok e
    ∧ ∀ plan, (e.builder.build s none plan).outcome = .ok ⟨entries⟩

theorem reports_of_built {p : Problem α} {s : Solution α} {catalog : Catalog}
    {settings : DiagnosisSettings α} {e : Evaluator α} (built : (Evaluator.build p s catalog settings).outcome = .ok e)
    {jobs : List (Job α)} (left : (leftoverJobs p s).outcome = .ok jobs) :
    Reports p s catalog settings (jobs.map fun job => (e.builder.explain (fun _ => false) job).2) := by
  refine ⟨e, built, fun plan => ReportBuilder.build_eq_ok.mpr ⟨jobs, ?_, rfl⟩⟩
  obtain ⟨-, states, -, rfl⟩ := Evaluator.build_eq_ok.mp built
  exact left

section

variable [SignlessZero α] {p : Problem α} {s : Solution α} {catalog : Catalog} {settings : DiagnosisSettings α}
  {e : Evaluator α} {jobs : List (Job α)} (jobIds : (p.jobs.map (·.id)).Nodup) (fleetIds : p.fleetIds.Nodup)
  (built : (Evaluator.build p s catalog settings).outcome = .ok e) (left : (leftoverJobs p s).outcome = .ok jobs)

include jobIds built left

/-- The entries are the same with windows, breaks, relations and routes in any order. -/
theorem reports_relisted (r : Relisting α) {relations : List Relation} (perm : relations.Perm p.relations)
    {routes : List (Route α)} (perm_routes : routes.Perm s.routes) :
    Reports (r.problem relations p) { s with routes } catalog settings
      (jobs.map fun job => (e.builder.explain (fun _ => false) job).2) := by
  obtain ⟨valid, states, prepared, rfl⟩ := Evaluator.build_eq_ok.mp built
  have distinct : (s.routes.map (·.vehicleId)).Nodup := (checkRoutes_eq_ok.mp valid).2.1
  have same_ids : (r.problem relations p).jobs.map (·.id) = p.jobs.map (·.id) := by
    show (p.jobs.map r.job).map (·.id) = _
    rw [List.map_map]
    rfl
  have same_fleet : (r.problem relations p).fleetIds = p.fleetIds := by
    show (p.fleet.map r.vehicle).map (·.id) = _
    rw [List.map_map]
    rfl
  obtain ⟨states', ties, built'⟩ := r.build_problem relations perm_routes distinct built
  have left' := leftoverJobs_of_knows (r.knows_problem relations) perm_routes jobIds (same_ids ▸ jobIds) left
  have reported := reports_of_built built' left'
  obtain ⟨-, -, rfl⟩ := (leftoverJobs_eq_ok jobIds).mp left
  have kept : (r.problem relations p).jobs.filter (fun j => s.unassigned.contains j.id)
      = (p.jobs.filter fun j => s.unassigned.contains j.id).map r.job := List.filter_map
  let e : Evaluator α := ⟨p, s, catalog, settings, states⟩
  let e' : Evaluator α := ⟨r.problem relations p, { s with routes }, catalog, settings, states'⟩
  have alike : e'.Alike e := ⟨perm, rfl, rfl, rfl⟩
  have same : ∀ job, e'.builder.explain (fun _ => false) (r.job job) = e.builder.explain (fun _ => false) job := by
    intro job
    have jobId : (r.job job).id = job.id := rfl
    exact ReportBuilder.explain_congr alike same_fleet jobId
      (ties.imp fun _ _ tie => Evaluator.evaluateVehicle_relisted alike job tie) _
  have entries : ((p.jobs.filter fun j => s.unassigned.contains j.id).map r.job).map
        (fun job => (e'.builder.explain (fun _ => false) job).2)
      = (p.jobs.filter fun j => s.unassigned.contains j.id).map fun job => (e.builder.explain (fun _ => false) job).2 := by
    rw [List.map_map]
    exact List.map_congr_left fun job _ => congrArg Prod.snd (same job)
  rw [kept] at reported
  exact entries ▸ reported

omit [SignlessZero α] in
/-- The entries are the same with the jobs in any order, and stand in that order. -/
theorem reports_jobs {jobs' : List (Job α)} (perm : jobs'.Perm p.jobs) :
    ∃ entries, Reports { p with jobs := jobs' } s catalog settings entries
      ∧ entries.Perm (jobs.map fun job => (e.builder.explain (fun _ => false) job).2) := by
  have known : ({ p with jobs := jobs' } : Problem α).Knows p :=
    Problem.knows_of_eq (Problem.job_of_perm perm jobIds) rfl
  have built' := Evaluator.build_jobs built perm jobIds
  have left' := leftoverJobs_of_knows known (.refl s.routes) jobIds ((perm.map _).nodup_iff.mpr jobIds) left
  refine ⟨_, reports_of_built built' left', ?_⟩
  obtain ⟨-, -, rfl⟩ := (leftoverJobs_eq_ok jobIds).mp left
  obtain ⟨-, states, -, rfl⟩ := Evaluator.build_eq_ok.mp built
  let e : Evaluator α := ⟨p, s, catalog, settings, states⟩
  let e' : Evaluator α := ⟨{ p with jobs := jobs' }, s, catalog, settings, states⟩
  have alike : e'.Alike e := ⟨.refl _, rfl, rfl, rfl⟩
  have same : ∀ job, e'.builder.explain (fun _ => false) job = e.builder.explain (fun _ => false) job := by
    intro job
    have surveys : ∀ state ∈ states, e'.evaluateVehicle job state = e.evaluateVehicle job state :=
      fun state _ => congrFun (congrFun alike.evaluateVehicle_eq job) state
    exact ReportBuilder.explain_congr alike rfl rfl (List.forall₂_same.mpr surveys) _
  have entries : (jobs'.filter fun j => s.unassigned.contains j.id).map
        (fun job => (e'.builder.explain (fun _ => false) job).2)
      = (jobs'.filter fun j => s.unassigned.contains j.id).map fun job => (e.builder.explain (fun _ => false) job).2 :=
    List.map_congr_left fun job _ => congrArg Prod.snd (same job)
  show ((jobs'.filter fun j => s.unassigned.contains j.id).map _).Perm _
  rw [entries]
  exact (perm.filter _).map _

include fleetIds

/-- The entries show the same reasons with the fleet in any order. -/
theorem reports_fleet (hints : s.HasDefinedHints) {fleet : List (Vehicle α)} (perm : fleet.Perm p.fleet) :
    ∃ entries, Reports { p with fleet } s catalog settings entries
      ∧ List.Forall₂ (Entry.SameReason settings.tieBreak)
        (jobs.map fun job => (e.builder.explain (fun _ => false) job).2) entries := by
  have known : ({ p with fleet } : Problem α).Knows p := Problem.knows_of_eq rfl (Problem.vehicle_of_perm perm fleetIds)
  obtain ⟨states', same_states, built'⟩ := Evaluator.build_fleet built perm fleetIds
  have left' := leftoverJobs_of_knows known (.refl s.routes) jobIds jobIds left
  refine ⟨_, reports_of_built built' left', ?_⟩
  obtain ⟨-, -, rfl⟩ := (leftoverJobs_eq_ok jobIds).mp left
  obtain ⟨-, states, prepared, rfl⟩ := Evaluator.build_eq_ok.mp built
  let e : Evaluator α := ⟨p, s, catalog, settings, states⟩
  let e' : Evaluator α := ⟨{ p with fleet }, s, catalog, settings, states'⟩
  have alike : e'.Alike e := ⟨.refl _, rfl, rfl, rfl⟩
  rw [List.forall₂_map_left_iff, List.forall₂_map_right_iff, List.forall₂_same]
  intro job _
  have vehicles : ((e.outcomes job).map (·.vehicleId)).Nodup := by
    rw [Evaluator.vehicleIds_outcomes (prepare_eq_ok.mp prepared)]
    exact fleetIds
  have defined : ∀ h ∈ e.usableHints job.id, IsComparable h.severity := hints.of_usable rfl
  have same : Entry.SameReason settings.tieBreak (e.builder.explain (fun _ => false) job).2
      (e'.builder.explain (fun _ => false) job).2 :=
    ReportBuilder.explain_fleet alike same_states vehicles defined
  exact same

end

/-- For a problem with distinct job ids and distinct vehicle ids, where no window of a job has an undefined end and no
hint an undefined severity, and for any checks and settings: let an evaluator be built, and let the leftover jobs be
found. Then a report is made, and it does not depend on the order in which the plan is listed. With the relations, the
routes, the windows of every job and the breaks of every vehicle in any order, a report is made with the same entries.
With the fleet in any order a report is made, of which each entry shows the same reason with the same text, and the same
severity if the nearest miss is shown. With the jobs in any order a report is made with the same entries in some
order. -/
theorem reports_of_order [SignlessZero α] {p : Problem α} {s : Solution α} {catalog : Catalog} {settings : DiagnosisSettings α}
    {e : Evaluator α} {jobs : List (Job α)} (jobIds : (p.jobs.map (·.id)).Nodup) (fleetIds : p.fleetIds.Nodup)
    (windows : p.HasDefinedWindows) (hints : s.HasDefinedHints)
    (built : (Evaluator.build p s catalog settings).outcome = .ok e) (left : (leftoverJobs p s).outcome = .ok jobs) :
    ∃ entries, Reports p s catalog settings entries
      ∧ (∀ q routes, p.Relisted q → routes.Perm s.routes → Reports q { s with routes } catalog settings entries)
      ∧ (∀ fleet, fleet.Perm p.fleet → ∃ entries', Reports { p with fleet } s catalog settings entries'
        ∧ List.Forall₂ (Entry.SameReason settings.tieBreak) entries entries')
      ∧ ∀ jobs', jobs'.Perm p.jobs → ∃ entries', Reports { p with jobs := jobs' } s catalog settings entries'
        ∧ entries'.Perm entries := by
  refine ⟨_, reports_of_built built left, ?_, ?_, ?_⟩
  · intro q routes relisted perm
    obtain ⟨r, same⟩ := relisted.exists_relisting jobIds fleetIds windows
    rw [same]
    exact reports_relisted jobIds built left r relisted.relations perm
  · exact fun fleet perm => reports_fleet jobIds fleetIds built left hints perm
  · exact fun jobs' perm => reports_jobs jobIds built left perm

end

/-! ### A plan with two of everything -/

/-- Two breaks, the first one soon. -/
def soonAndLater : List (Break Exact) :=
  [⟨⟨.finite 10, .finite 100⟩, .finite 30⟩, ⟨⟨.finite 300, .finite 400⟩, .finite 20⟩]

/-- The van with two breaks. -/
def restedVan : Vehicle Exact := { Evaluator.van with breaks := soonAndLater }

/-- The spare van with two breaks. -/
def restedSpare : Vehicle Exact := { spare with breaks := soonAndLater }

/-- The pickup in the morning or in the evening, the evening listed first. -/
def eveningLift : Job Exact :=
  { Evaluator.lift with windows := [⟨.finite 400, .finite 500⟩, ⟨.finite 0, .finite 50⟩] }

/-- Two jobs, two vans and two relations. -/
def pairedPlan : Problem Exact where
  jobs := [Evaluator.drop, eveningLift]
  fleet := [restedVan, restedSpare]
  relations := [⟨.sequence, ["lift", "drop"], "van"⟩, ⟨.any, ["drop"], "van"⟩]
  matrices := [("car", RouteState.twoPlaces)]

/-- The same plan with windows, breaks and relations the other way round. -/
def reversedPlan : Problem Exact where
  jobs := [Evaluator.drop, { eveningLift with windows := eveningLift.windows.reverse }]
  fleet := [{ restedVan with breaks := soonAndLater.reverse }, { restedSpare with breaks := soonAndLater.reverse }]
  relations := pairedPlan.relations.reverse
  matrices := pairedPlan.matrices

/-- One van makes the delivery, the other one has a route without stops, and the pickup is left over. -/
def pairedSolution : Solution Exact where
  routes := [⟨"van", none, [.bare "drop"], none, none⟩, ⟨"spare", none, [], none, none⟩]
  unassigned := ["lift"]
  hints := []

/-- The route of the van with two breaks. -/
def restedVanRoute : RouteState Exact := { Evaluator.vanRoute with vehicle := restedVan, walk_eq := by decide +kernel }

/-- The route of the spare van with two breaks. -/
def restedSpareRoute : RouteState Exact := { spareRoute with vehicle := restedSpare, walk_eq := by decide +kernel }

/-- The evaluator of that solution, with all checks. -/
def pairedEvaluator : Evaluator Exact where
  problem := pairedPlan
  solution := pairedSolution
  catalog := .without []
  settings := {}
  states := [restedVanRoute, restedSpareRoute]

theorem build_restedVanRoute : RouteState.build restedVan RouteState.twoPlaces [Evaluator.drop] none = .ok restedVanRoute :=
  RouteState.build_eq_of_walk rfl restedVanRoute.walk_eq

theorem build_restedSpareRoute : RouteState.build restedSpare RouteState.twoPlaces [] none = .ok restedSpareRoute :=
  RouteState.build_eq_of_walk rfl restedSpareRoute.walk_eq

theorem build_pairedEvaluator :
    (Evaluator.build pairedPlan pairedSolution (.without []) {}).outcome = .ok pairedEvaluator := by
  have current : currentRoute pairedPlan pairedSolution restedVan = .ok restedVanRoute := build_restedVanRoute
  have current' : currentRoute pairedPlan pairedSolution restedSpare = .ok restedSpareRoute := build_restedSpareRoute
  have route := routeOf_eq_ok.mpr ⟨current, fun _ => ⟨rfl, rfl⟩⟩
  have route' := routeOf_eq_ok.mpr ⟨current', fun _ => ⟨rfl, rfl⟩⟩
  rw [Evaluator.build_eq_ok]
  exact ⟨by decide +kernel, _, prepare_eq_ok.mpr (.cons route (.cons route' .nil)), rfl⟩

theorem relisted_reversedPlan : pairedPlan.Relisted reversedPlan where
  jobs := .cons ⟨.refl _, rfl⟩ (.cons ⟨List.reverse_perm _, rfl⟩ .nil)
  fleet := .cons ⟨List.reverse_perm _, rfl⟩ (.cons ⟨List.reverse_perm _, rfl⟩ .nil)
  relations := List.reverse_perm _
  matrices := rfl

theorem reports_of_order_paired :
    (pairedPlan.jobs.map (·.id)).Nodup ∧ pairedPlan.fleetIds.Nodup ∧ pairedPlan.HasDefinedWindows
      ∧ pairedSolution.HasDefinedHints ∧ (leftoverJobs pairedPlan pairedSolution).outcome = .ok [eveningLift]
      ∧ ∃ entries, Reports pairedPlan pairedSolution (.without []) {} entries
        ∧ Reports reversedPlan { pairedSolution with routes := pairedSolution.routes.reverse } (.without []) {} entries
        ∧ (∃ entries', Reports { pairedPlan with fleet := pairedPlan.fleet.reverse } pairedSolution (.without []) {} entries'
          ∧ List.Forall₂ (Entry.SameReason .nearestMiss) entries entries')
        ∧ ∃ entries', Reports { pairedPlan with jobs := pairedPlan.jobs.reverse } pairedSolution (.without []) {} entries'
          ∧ entries'.Perm entries := by
  have jobIds : (pairedPlan.jobs.map (·.id)).Nodup := by decide
  have fleetIds : pairedPlan.fleetIds.Nodup := by decide
  have windows : pairedPlan.HasDefinedWindows := by
    have finite : ∀ j ∈ pairedPlan.jobs, ∀ w ∈ j.windows,
        Quantity.isUndefined w.opens = false ∧ Quantity.isUndefined w.closes = false := by decide
    exact fun j hj w hw => ⟨(finite j hj w hw).1, (finite j hj w hw).2⟩
  have hints : pairedSolution.HasDefinedHints := fun group member => absurd member (by simp [pairedSolution])
  have left : (leftoverJobs pairedPlan pairedSolution).outcome = .ok [eveningLift] := by
    rw [leftoverJobs_eq_ok jobIds]
    decide +kernel
  obtain ⟨entries, made, relisted, fleet, jobs⟩ :=
    reports_of_order jobIds fleetIds windows hints build_pairedEvaluator left
  exact ⟨jobIds, fleetIds, windows, hints, left, entries, made,
    relisted reversedPlan _ relisted_reversedPlan (List.reverse_perm _), fleet _ (List.reverse_perm _),
    jobs _ (List.reverse_perm _)⟩

end Leftover
