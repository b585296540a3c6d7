/-
# The shape of routes

Of the routes of a solution only their shape counts: for each vehicle when it starts, and which jobs it serves in which
order. The figures that are reported for a route change nothing, and neither do the other leftover jobs and their hints.

* `Solution.SameShape` : two solutions have the same shape for a vehicle
* `routeOf_congr` : the route of a vehicle is the same in both
* `exists_common_state` : what is found for a vehicle depends on no other route
* `explains_of_leftover` : the entry of a job in a report
* `entry_of_shapes` : the entry of a job depends on the shapes of the routes and the hints for it only
-/
import Leftover.Proofs.Deadline

namespace Leftover

variable {α : Type}

/-! ## Shapes -/

/-- Two solutions make a vehicle start at the same time, if a time is given, and serve the same jobs in the same order.
A vehicle without a route is like one with a route that has no stops and no start time. -/
structure Solution.SameShape (s t : Solution α) (vehicleId : Text) : Prop where
  startTime : s.startTimeOf? vehicleId = t.startTimeOf? vehicleId
  jobIds : s.jobIdsOf vehicleId = t.jobIdsOf vehicleId

instance [DecidableEq α] (s t : Solution α) (vehicleId : Text) : Decidable (s.SameShape t vehicleId) :=
  decidable_of_iff (s.startTimeOf? vehicleId = t.startTimeOf? vehicleId ∧ s.jobIdsOf vehicleId = t.jobIdsOf vehicleId)
    ⟨fun h => ⟨h.1, h.2⟩, fun h => ⟨h.startTime, h.jobIds⟩⟩

variable [Quantity α] {p : Problem α} {s t : Solution α}

/-- The route of a vehicle depends on its shape only. -/
theorem routeOf_congr {v : Vehicle α} (same : s.SameShape t v.id) : routeOf p s v = routeOf p t v := by
  have current : currentRoute p s v = currentRoute p t v := by
    rw [currentRoute_eq, currentRoute_eq, same.jobIds, same.startTime]
  rw [routeOf, routeOf, current]

/-! ## Routes of a fleet -/

/-- A vehicle of the fleet has its route at its place. -/
theorem exists_state_of_getElem? {fleet : List (Vehicle α)} {states : List (RouteState α)}
    (routes : List.Forall₂ (fun v state => routeOf p s v = .ok state) fleet states) {k : Nat} {v : Vehicle α}
    (at_k : fleet[k]? = some v) : ∃ state, states[k]? = some state ∧ routeOf p s v = .ok state := by
  induction routes generalizing k with
  | nil => exact absurd at_k (by simp)
  | @cons first state _ _ route _ ih =>
    cases k with
    | zero =>
      rw [List.getElem?_cons_zero] at at_k
      obtain rfl := Option.some.inj at_k
      exact ⟨state, rfl, route⟩
    | succ k =>
      rw [List.getElem?_cons_succ] at at_k
      exact ih at_k

/-- The routes of a fleet are the same if they have the same shape for each of its vehicles. -/
theorem states_eq_of_sameShape {fleet : List (Vehicle α)} {states states' : List (RouteState α)}
    (routes : List.Forall₂ (fun v state => routeOf p s v = .ok state) fleet states)
    (routes' : List.Forall₂ (fun v state => routeOf p t v = .ok state) fleet states')
    (same : ∀ v ∈ fleet, s.SameShape t v.id) : states' = states := by
  induction routes generalizing states' with
  | nil => exact List.forall₂_nil_left_iff.mp routes'
  | @cons v state _ _ route _ ih =>
    obtain ⟨state', rest', route', others', rfl⟩ := List.forall₂_cons_left_iff.mp routes'
    rw [← routeOf_congr (same v List.mem_cons_self), route] at route'
    have first : state = state' := Except.ok.inj route'
    have rest := ih others' fun w later => same w (List.mem_cons_of_mem v later)
    rw [first, rest]

section

variable {catalog : Catalog} {settings : DiagnosisSettings α} {e e' : Evaluator α}
  (built : (Evaluator.build p s catalog settings).outcome = .ok e)
  (built' : (Evaluator.build p t catalog settings).outcome = .ok e')

include built built'

variable [Plane α] in
/-- If two solutions have the same shape for a vehicle, both evaluators hold the same route for it, and they find the
same for every job on that route. -/
theorem exists_common_state {k : Nat} {v : Vehicle α} (at_k : p.fleet[k]? = some v) (same : s.SameShape t v.id) :
    ∃ state, e.states[k]? = some state ∧ e'.states[k]? = some state
      ∧ ∀ job, e'.evaluateVehicle job state = e.evaluateVehicle job state := by
  obtain ⟨-, states, prepared, rfl⟩ := Evaluator.build_eq_ok.mp built
  obtain ⟨-, states', prepared', rfl⟩ := Evaluator.build_eq_ok.mp built'
  obtain ⟨state, here, route⟩ := exists_state_of_getElem? (prepare_eq_ok.mp prepared) at_k
  obtain ⟨state', here', route'⟩ := exists_state_of_getElem? (prepare_eq_ok.mp prepared') at_k
  rw [← routeOf_congr same, route] at route'
  obtain rfl : state = state' := Except.ok.inj route'
  exact ⟨state, here, here', fun job => rfl⟩

/-- If two solutions have the same shape for the whole fleet, one evaluator is the other one on another solution. -/
theorem eq_onSolution_of_sameShape (same : ∀ v ∈ p.fleet, s.SameShape t v.id) : e' = e.onSolution t := by
  obtain ⟨-, states, prepared, rfl⟩ := Evaluator.build_eq_ok.mp built
  obtain ⟨-, states', prepared', rfl⟩ := Evaluator.build_eq_ok.mp built'
  rw [states_eq_of_sameShape (prepare_eq_ok.mp prepared) (prepare_eq_ok.mp prepared') same]
  rfl

end

/-! ## Entries -/

variable [Plane α]

/-- Without a deadline the report that is made on a solution has this entry and no other one for its job, whichever
workers go about the jobs. -/
def ReportBuilder.Explains (b : ReportBuilder α) (s : Solution α) (entry : Entry α) : Prop :=
  ∀ plan, ∃ report, (b.build s none plan).outcome = .ok report
    ∧ report.entries.filter (·.jobId = entry.jobId) = [entry]

/-- The entry of a leftover job is the one that is made for it. -/
theorem explains_of_leftover {b : ReportBuilder α} (distinct : (b.evaluator.problem.jobs.map (·.id)).Nodup)
    {jobs : List (Job α)} (left : (leftoverJobs b.evaluator.problem s).outcome = .ok jobs) {job : Job α}
    (listed : job ∈ jobs) : b.Explains s (b.explain (fun _ => false) job).2 := by
  have own : ∀ j, (b.explain (fun _ => false) j).2.jobId = j.id := b.explain_jobId _
  have once : jobs.filter (·.id = job.id) = [job] := by
    obtain ⟨-, -, rfl⟩ := (leftoverJobs_eq_ok distinct).mp left
    exact filter_key_eq_singleton (distinct.sublist (List.filter_sublist.map _)) listed
  intro plan
  refine ⟨_, ReportBuilder.build_eq_ok.mpr ⟨jobs, left, rfl⟩, ?_⟩
  show (jobs.map fun j => (b.explain (fun _ => false) j).2).filter _ = _
  rw [List.filter_map, own job]
  have same_test : ((fun entry : Entry α => decide (entry.jobId = job.id)) ∘ fun j => (b.explain (fun _ => false) j).2)
      = fun j => decide (j.id = job.id) := by
    funext j
    show decide ((b.explain _ j).2.jobId = job.id) = _
    rw [own j]
  rw [same_test, once, List.map_singleton]

/-- For a problem with distinct job ids, and two solutions on each of which an evaluator is built with the same checks
and settings. If the solutions have the same shape for a vehicle of the fleet, then both evaluators hold the same route
for it, and find the same for every job on that route, whatever the other routes are. If the leftover jobs of both are
found, the solutions have the same shape for all vehicles, and the same hints for a job that both leave over, then the
reports on both have the same entry for that job, whichever way the vehicle shown is picked, and whichever workers go
about the jobs. -/
theorem entry_of_shapes {catalog : Catalog} {settings : DiagnosisSettings α} {e e' : Evaluator α}
    (distinct : (p.jobs.map (·.id)).Nodup) (built : (Evaluator.build p s catalog settings).outcome = .ok e)
    (built' : (Evaluator.build p t catalog settings).outcome = .ok e') :
    (∀ (k : Nat) (v : Vehicle α), p.fleet[k]? = some v → s.SameShape t v.id →
        ∃ state, e.states[k]? = some state ∧ e'.states[k]? = some state
          ∧ ∀ job, e'.evaluateVehicle job state = e.evaluateVehicle job state)
      ∧ ∀ jobs jobs', (leftoverJobs p s).outcome = .ok jobs → (leftoverJobs p t).outcome = .ok jobs' →
        (∀ v ∈ p.fleet, s.SameShape t v.id) →
        ∀ id ∈ s.unassigned, id ∈ t.unassigned → t.hintsFor id = s.hintsFor id →
        ∀ tieBreak, ∃ entry, entry.jobId = id
          ∧ ∀ maxWorkers, ReportBuilder.Explains ⟨e, tieBreak, maxWorkers⟩ s entry
            ∧ ReportBuilder.Explains ⟨e', tieBreak, maxWorkers⟩ t entry := by
  refine ⟨fun k v at_k same => exists_common_state built built' at_k same, ?_⟩
  intro jobs jobs' left left' same id mine mine' hints tieBreak
  obtain rfl := eq_onSolution_of_sameShape built built' same
  obtain ⟨-, states, -, rfl⟩ := Evaluator.build_eq_ok.mp built
  obtain ⟨exist, -, jobs_eq⟩ := (leftoverJobs_eq_ok distinct).mp left
  obtain ⟨-, -, jobs_eq'⟩ := (leftoverJobs_eq_ok distinct).mp left'
  -- the id is that of a job, which is found in both
  obtain ⟨job, member, rfl⟩ := List.mem_map.mp (mem_ids_of_checkReferences exist mine)
  have listed : job ∈ jobs := by
    rw [jobs_eq, List.mem_filter, List.contains_iff_mem]
    exact ⟨member, mine⟩
  have listed' : job ∈ jobs' := by
    rw [jobs_eq', List.mem_filter, List.contains_iff_mem]
    exact ⟨member, mine'⟩
  let e : Evaluator α := ⟨p, s, catalog, settings, states⟩
  refine ⟨(ReportBuilder.explain ⟨e, tieBreak, 1⟩ (fun _ => false) job).2, ReportBuilder.explain_jobId _ _ job, ?_⟩
  intro maxWorkers
  constructor
  · exact explains_of_leftover (b := ⟨e, tieBreak, maxWorkers⟩) distinct left listed
  · have explained := explains_of_leftover (b := ⟨e.onSolution t, tieBreak, maxWorkers⟩) distinct left' listed'
    have same_entry := ReportBuilder.explain_onSolution ⟨e, tieBreak, maxWorkers⟩ hints fun _ => false
    rw [same_entry] at explained
    exact explained

/-! ### Two reports on the vans -/

/-- The solution for two vans with figures for the delivery and its route, a route without stops for the second van,
only one of the jobs left over, and hints for the other one. -/
def toldVanSolution : Solution Exact where
  routes := [⟨"spare", none, [], some (.finite 4), none⟩,
    ⟨"van", none, [⟨"drop", some (.finite 3), none, [.finite 8], some .undefined⟩], none, some .plusInfinity⟩]
  unassigned := ["lift", "lift"]
  hints := [("crate", [⟨.tourSize, none, none⟩])]

theorem build_toldVanSolution :
    (Evaluator.build spareVanPlan toldVanSolution (.without []) {}).outcome
      = .ok (spareVanEvaluator.onSolution toldVanSolution) := by
  have current : currentRoute spareVanPlan toldVanSolution Evaluator.van = .ok Evaluator.vanRoute := Evaluator.build_vanRoute
  have current' : currentRoute spareVanPlan toldVanSolution spare = .ok spareRoute := build_spareRoute
  have route := routeOf_eq_ok.mpr ⟨current, fun _ => ⟨rfl, rfl⟩⟩
  have route' := routeOf_eq_ok.mpr ⟨current', fun _ => ⟨rfl, rfl⟩⟩
  rw [Evaluator.build_eq_ok]
  exact ⟨by decide +kernel, [Evaluator.vanRoute, spareRoute], prepare_eq_ok.mpr (.cons route (.cons route' .nil)), rfl⟩

theorem entry_of_shapes_told :
    (∀ v ∈ spareVanPlan.fleet, spareVanSolution.SameShape toldVanSolution v.id)
      ∧ toldVanSolution.hintsFor "lift" = spareVanSolution.hintsFor "lift"
      ∧ (∃ state, spareVanEvaluator.states[1]? = some state
        ∧ (spareVanEvaluator.onSolution toldVanSolution).evaluateVehicle Evaluator.crate state
          = spareVanEvaluator.evaluateVehicle Evaluator.crate state)
      ∧ ∃ entry : Entry Exact, entry.jobId = "lift"
        ∧ ReportBuilder.Explains ⟨spareVanEvaluator, .nearestMiss, 2⟩ spareVanSolution entry
        ∧ ReportBuilder.Explains ⟨spareVanEvaluator.onSolution toldVanSolution, .nearestMiss, 2⟩ toldVanSolution entry := by
  have distinct : (spareVanPlan.jobs.map (·.id)).Nodup := by decide
  have same : ∀ v ∈ spareVanPlan.fleet, spareVanSolution.SameShape toldVanSolution v.id := by decide +kernel
  have hints : toldVanSolution.hintsFor "lift" = spareVanSolution.hintsFor "lift" := by decide +kernel
  have left : (leftoverJobs spareVanPlan spareVanSolution).outcome = .ok [Evaluator.lift, Evaluator.crate] := by
    rw [leftoverJobs_eq_ok distinct]
    decide +kernel
  have left' : (leftoverJobs spareVanPlan toldVanSolution).outcome = .ok [Evaluator.lift] := by
    rw [leftoverJobs_eq_ok distinct]
    decide +kernel
  obtain ⟨vehicles, entries⟩ := entry_of_shapes distinct build_spareVanEvaluator build_toldVanSolution
  obtain ⟨state, here, -, found⟩ := vehicles 1 spare rfl (same spare (by decide))
  obtain ⟨entry, jobId, explained⟩ := entries _ _ left left' same "lift" (by decide) (by decide) hints .nearestMiss
  exact ⟨same, hints, ⟨state, here, found Evaluator.crate⟩, entry, jobId, explained 2⟩

end Leftover
