/-
# Plans listed in another order

The jobs, the fleet, the relations and the routes of a plan are listed in another order, and so are the windows of its
jobs and the breaks of its vehicles. Ids stand for the same things as before. So an evaluator is built on such a plan if
it is built on the plan as it was, and it holds the same routes, but for the signs of zeros; and the same jobs are left
over.

* `Problem.Knows` : ids that stand for something in one plan do so in another
* `leftoverJobs_of_knows` : the jobs that are left over
* `Relisting.build_problem` : the evaluator on relisted windows and breaks, with relations and routes in any order
* `Evaluator.build_jobs`, `Evaluator.build_fleet` : the evaluators on jobs and on a fleet in any order
-/
import Leftover.Proofs.Reasons
import Leftover.Proofs.Relisting

namespace Leftover

variable {α : Type}

/-! ## Ids -/

section

variable {p q : Problem α} {s : Solution α}

/-- Jobs are found under their ids in any order. -/
theorem Problem.job_of_perm {jobs : List (Job α)} (perm : jobs.Perm p.jobs) (distinct : (p.jobs.map (·.id)).Nodup) :
    ({ p with jobs } : Problem α).job = p.job := by
  funext id
  rw [job, job?, find?_key_perm perm ((perm.map _).nodup_iff.mpr distinct), job, job?]

/-- Vehicles are found under their ids in any order. -/
theorem Problem.vehicle_of_perm {fleet : List (Vehicle α)} (perm : fleet.Perm p.fleet) (distinct : p.fleetIds.Nodup) :
    ({ p with fleet } : Problem α).vehicle = p.vehicle := by
  have distinct' : (fleet.map (·.id)).Nodup := (perm.map fun v : Vehicle α => v.id).nodup_iff.mpr distinct
  funext id
  rw [vehicle, vehicle?, find?_key_perm perm distinct', vehicle, vehicle?]

/-- Every id that stands for something in a problem stands for something in another one. -/
structure Problem.Knows (q p : Problem α) : Prop where
  job : ∀ id j, p.job id = .ok j → ∃ j', q.job id = .ok j'
  vehicle : ∀ id v, p.vehicle id = .ok v → ∃ v', q.vehicle id = .ok v'

theorem Problem.knows_of_eq (jobs : q.job = p.job) (vehicles : q.vehicle = p.vehicle) : q.Knows p where
  job := fun _ j found => ⟨j, jobs ▸ found⟩
  vehicle := fun _ v found => ⟨v, vehicles ▸ found⟩

section

variable (knows : q.Knows p) {routes : List (Route α)} (perm : routes.Perm s.routes)

include knows perm

/-- Everything that a solution names exists in a problem that knows as much. -/
theorem checkReferences_of_knows (exist : checkReferences p s = .ok ()) :
    checkReferences q { s with routes } = .ok () := by
  obtain ⟨_, valid, exist⟩ := except_bind_eq_ok.mp exist
  obtain ⟨_, hinted, left⟩ := except_bind_eq_ok.mp exist
  refine except_bind_eq_ok.mpr ⟨(), ?_, except_bind_eq_ok.mpr ⟨(), ?_, ?_⟩⟩
  · refine except_forM_eq_ok.mpr fun route member => ?_
    obtain ⟨v, found, stops⟩ := except_bind_eq_ok.mp (except_forM_eq_ok.mp valid route (perm.mem_iff.mp member))
    obtain ⟨v', found'⟩ := knows.vehicle _ v found
    refine except_bind_eq_ok.mpr ⟨v', found', except_forM_eq_ok.mpr fun id served => ?_⟩
    obtain ⟨j, found, -⟩ := except_bind_eq_ok.mp (except_forM_eq_ok.mp stops id served)
    obtain ⟨j', found'⟩ := knows.job id j found
    exact except_bind_eq_ok.mpr ⟨j', found', rfl⟩
  · refine except_forM_eq_ok.mpr fun hint member => ?_
    have checked := except_forM_eq_ok.mp hinted hint member
    unfold checkHint at checked ⊢
    cases told : hint.vehicleId with
    | none => rfl
    | some id =>
      rw [told] at checked
      obtain ⟨v, found, -⟩ := except_bind_eq_ok.mp checked
      obtain ⟨v', found'⟩ := knows.vehicle id v found
      exact except_bind_eq_ok.mpr ⟨v', found', rfl⟩
  · refine except_forM_eq_ok.mpr fun id listed => ?_
    obtain ⟨j, found, -⟩ := except_bind_eq_ok.mp (except_forM_eq_ok.mp left id listed)
    obtain ⟨j', found'⟩ := knows.job id j found
    exact except_bind_eq_ok.mpr ⟨j', found', rfl⟩

/-- The leftover jobs are found in a problem that knows as much, in its own order. -/
theorem leftoverJobs_of_knows (distinct : (p.jobs.map (·.id)).Nodup) (distinct' : (q.jobs.map (·.id)).Nodup)
    {jobs : List (Job α)} (found : (leftoverJobs p s).outcome = .ok jobs) :
    (leftoverJobs q { s with routes }).outcome = .ok (q.jobs.filter fun j => s.unassigned.contains j.id) := by
  obtain ⟨exist, unrouted, -⟩ := (leftoverJobs_eq_ok distinct).mp found
  refine (leftoverJobs_eq_ok distinct').mpr ⟨checkReferences_of_knows knows perm exist, ?_, rfl⟩
  rw [checkUnrouted_eq_ok] at unrouted ⊢
  intro id left
  rw [← unrouted id left]
  exact perm.any_eq

end

/-! ## Routes of a solution -/

/-- Routes are valid in any order, for any problem that knows as much. -/
theorem checkRoutes_of_knows (knows : q.Knows p) {routes : List (Route α)} (perm : routes.Perm s.routes)
    (valid : checkRoutes p [] s.routes = .ok ()) : checkRoutes q [] routes = .ok () := by
  obtain ⟨known, distinct, -⟩ := checkRoutes_eq_ok.mp valid
  refine checkRoutes_eq_ok.mpr ⟨fun route member => ?_, (perm.map _).nodup_iff.mpr distinct, by simp⟩
  obtain ⟨v, found⟩ := known route (perm.mem_iff.mp member)
  exact knows.vehicle _ v found

/-- A vehicle has the same route in any order of the routes. -/
theorem Solution.routeFor?_of_perm {routes : List (Route α)} (perm : routes.Perm s.routes)
    (distinct : (s.routes.map (·.vehicleId)).Nodup) (vehicleId : Text) :
    ({ s with routes } : Solution α).routeFor? vehicleId = s.routeFor? vehicleId :=
  find?_key_perm perm ((perm.map _).nodup_iff.mpr distinct) vehicleId

end

/-! ## Evaluators -/

variable [Quantity α] {p : Problem α} {s : Solution α}

/-! ### Windows, breaks, relations and routes -/

namespace Relisting

variable (r : Relisting α) (relations : List Relation)

/-- The problem with windows and breaks listed in the other way, and other relations. -/
def problem (p : Problem α) : Problem α :=
  { p with jobs := p.jobs.map r.job, fleet := p.fleet.map r.vehicle, relations }

theorem job_problem (id : Text) : (r.problem relations p).job id = (p.job id).map r.job := by
  have found : (r.problem relations p).job? id = (p.job? id).map r.job := List.find?_map
  rw [Problem.job, found, Problem.job]
  cases p.job? id <;> rfl

theorem vehicle_problem (id : Text) : (r.problem relations p).vehicle id = (p.vehicle id).map r.vehicle := by
  have found : (r.problem relations p).vehicle? id = (p.vehicle? id).map r.vehicle := List.find?_map
  rw [Problem.vehicle, found, Problem.vehicle]
  cases p.vehicle? id <;> rfl

theorem knows_problem : (r.problem relations p).Knows p where
  job := by
    intro id j found
    rw [job_problem, found]
    exact ⟨_, rfl⟩
  vehicle := by
    intro id v found
    rw [vehicle_problem, found]
    exact ⟨_, rfl⟩

theorem mapM_job_problem (ids : List Text) :
    ids.mapM (r.problem relations p).job = (ids.mapM p.job).map (List.map r.job) := by
  induction ids with
  | nil => rfl
  | cons id rest ih =>
    rw [List.mapM_cons, List.mapM_cons, job_problem, ih]
    cases p.job id with
    | error fault => rfl
    | ok j => cases rest.mapM p.job <;> rfl

variable [SignlessZero α] {routes : List (Route α)} (perm : routes.Perm s.routes)
  (distinct : (s.routes.map (·.vehicleId)).Nodup)

include perm distinct

/-- A vehicle has the same route as before, but for the signs of zeros. -/
theorem routeOf_problem (v : Vehicle α) :
    Parallel r.StateTies (routeOf (r.problem relations p) { s with routes } (r.vehicle v)) (routeOf p s v) := by
  have current : Parallel r.StateTies (currentRoute (r.problem relations p) { s with routes } (r.vehicle v))
      (currentRoute p s v) := by
    have matrix : (r.problem relations p).matrixFor (r.vehicle v) = p.matrixFor v := rfl
    have route := Solution.routeFor?_of_perm perm distinct v.id
    have served : ({ s with routes } : Solution α).jobIdsOf (r.vehicle v).id = s.jobIdsOf v.id :=
      congrArg (fun found => (found.map Route.jobIds).getD []) route
    have begun : ({ s with routes } : Solution α).startTimeOf? (r.vehicle v).id = s.startTimeOf? v.id :=
      congrArg (fun found => found.bind (·.startTime)) route
    rw [currentRoute_eq, currentRoute_eq, served, begun, mapM_job_problem, matrix]
    cases (s.jobIdsOf v.id).mapM p.job with
    | error fault => exact .error fault
    | ok jobs =>
      cases p.matrixFor v with
      | error fault => exact .error fault
      | ok m => exact r.build_ties v m jobs _
  refine current.bind fun t state ties => ?_
  have shown : showable t.base.endTime = showable state.base.endTime := by
    rw [showable, ties.base.endTime.isFinite_eq, ties.base.endTime.isUndefined_eq, showable]
  rw [ties.base.reachable, ties.base.startTime, shown]
  split
  · cases showable state.base.startTime with
    | error fault => exact .error fault
    | ok _ =>
      cases showable state.base.endTime with
      | error fault => exact .error fault
      | ok _ => exact .ok ties
  · exact .ok ties

/-- An evaluator is built on the relisted problem, and holds the same routes but for the signs of zeros. -/
theorem build_problem {catalog : Catalog} {settings : DiagnosisSettings α} {e : Evaluator α}
    (built : (Evaluator.build p s catalog settings).outcome = .ok e) :
    ∃ states, List.Forall₂ r.StateTies states e.states
      ∧ (Evaluator.build (r.problem relations p) { s with routes } catalog settings).outcome
        = .ok ⟨r.problem relations p, { s with routes }, catalog, settings, states⟩ := by
  obtain ⟨valid, states, prepared, rfl⟩ := Evaluator.build_eq_ok.mp built
  have routes_of : ∀ {fleet : List (Vehicle α)} {states : List (RouteState α)},
      List.Forall₂ (fun v state => routeOf p s v = .ok state) fleet states → ∃ states', List.Forall₂ r.StateTies states' states
        ∧ List.Forall₂ (fun v state => routeOf (r.problem relations p) { s with routes } v = .ok state)
          (fleet.map r.vehicle) states' := by
    intro fleet states each
    induction each with
    | nil => exact ⟨[], .nil, .nil⟩
    | @cons v _ _ _ route _ ih =>
      obtain ⟨states', ties, routes'⟩ := ih
      obtain ⟨state', route', tie⟩ := (r.routeOf_problem relations perm distinct v).exists_ok route
      exact ⟨state' :: states', .cons tie ties, .cons route' routes'⟩
  obtain ⟨states', ties, routes'⟩ := routes_of (prepare_eq_ok.mp prepared)
  refine ⟨states', ties, ?_⟩
  rw [Evaluator.build_eq_ok]
  exact ⟨checkRoutes_of_knows (r.knows_problem relations) perm valid, _, prepare_eq_ok.mpr routes', rfl⟩

end Relisting

/-! ### Jobs and the fleet -/

section

variable {catalog : Catalog} {settings : DiagnosisSettings α} {e : Evaluator α}
  (built : (Evaluator.build p s catalog settings).outcome = .ok e)

include built

/-- An evaluator is built on the jobs in any order, and holds the same routes. -/
theorem Evaluator.build_jobs {jobs : List (Job α)} (perm : jobs.Perm p.jobs) (distinct : (p.jobs.map (·.id)).Nodup) :
    (Evaluator.build { p with jobs } s catalog settings).outcome = .ok { e with problem := { p with jobs } } := by
  have known : ({ p with jobs } : Problem α).Knows p := Problem.knows_of_eq (Problem.job_of_perm perm distinct) rfl
  obtain ⟨valid, states, prepared, rfl⟩ := Evaluator.build_eq_ok.mp built
  rw [Evaluator.build_eq_ok]
  have same : routeOf { p with jobs } s = routeOf p s := by
    funext v
    rw [routeOf, currentRoute, Problem.job_of_perm perm distinct]
    rfl
  refine ⟨checkRoutes_of_knows (s := s) known (.refl _) valid, states, ?_, rfl⟩
  exact (prepare_congr same p.fleet).trans prepared

/-- An evaluator is built on the fleet in any order, and holds the same routes in that order. -/
theorem Evaluator.build_fleet {fleet : List (Vehicle α)} (perm : fleet.Perm p.fleet) (distinct : p.fleetIds.Nodup) :
    ∃ states, states.Perm e.states
      ∧ (Evaluator.build { p with fleet } s catalog settings).outcome = .ok { e with problem := { p with fleet }, states } := by
  have known : ({ p with fleet } : Problem α).Knows p := Problem.knows_of_eq rfl (Problem.vehicle_of_perm perm distinct)
  obtain ⟨valid, states, prepared, rfl⟩ := Evaluator.build_eq_ok.mp built
  obtain ⟨states', routes, same⟩ := List.perm_comp_forall₂ perm (prepare_eq_ok.mp prepared)
  refine ⟨states', same, ?_⟩
  rw [Evaluator.build_eq_ok]
  exact ⟨checkRoutes_of_knows (s := s) known (.refl _) valid, states', prepare_eq_ok.mpr routes, rfl⟩

end

end Leftover
