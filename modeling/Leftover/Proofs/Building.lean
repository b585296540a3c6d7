/-
# Building evaluators

An evaluator is built on a solution if every route is of a vehicle of its own, and if the route that each vehicle of the
fleet then has can be walked and shown.

* `checkRoutes_eq_ok` : the routes of a solution are valid
* `Solution.jobIdsOf`, `Solution.startTimeOf?` : what a route is walked by
* `currentRoute_eq_ok`, `routeOf_eq_ok` : the route of one vehicle
* `vehicle_of_routeOf`, `mem_jobs_of_routeOf` : what it is made of
* `prepare_eq_ok`, `vehicles_of_routes` : the routes of a fleet
* `Evaluator.build_eq_ok` : the evaluator
-/
import Leftover.Diagnosis.Evaluator
import Leftover.Proofs.Drive
import Leftover.Proofs.Lookup
import Leftover.Proofs.Outcome

namespace Leftover

variable {α : Type}

/-! ## Routes of a solution -/

/-- Routes are valid if each is of a vehicle of the fleet, and no two are of the same one. -/
theorem checkRoutes_eq_ok {p : Problem α} {seen : List Text} {routes : List (Route α)} :
    checkRoutes p seen routes = .ok () ↔ (∀ route ∈ routes, ∃ v, p.vehicle route.vehicleId = .ok v)
      ∧ (routes.map (·.vehicleId)).Nodup ∧ ∀ route ∈ routes, route.vehicleId ∉ seen := by
  induction routes generalizing seen with
  | nil => simp [checkRoutes]
  | cons route rest ih =>
    rw [checkRoutes, except_bind_eq_ok, List.forall_mem_cons, List.forall_mem_cons, List.map_cons, List.nodup_cons]
    constructor
    · rintro ⟨v, found, valid⟩
      rw [(Problem.of_vehicle_eq_ok found).2] at valid
      split at valid
      · exact absurd valid (by simp)
      · rename_i fresh
        obtain ⟨known, distinct, unseen⟩ := ih.mp valid
        refine ⟨⟨⟨v, found⟩, known⟩, ⟨?_, distinct⟩, by simpa using fresh, ?_⟩
        · intro again
          obtain ⟨route', later, same⟩ := List.mem_map.mp again
          exact unseen route' later (by simp [same])
        · exact fun route' later old => unseen route' later (List.mem_cons_of_mem _ old)
    · rintro ⟨⟨⟨v, found⟩, known⟩, ⟨once, distinct⟩, fresh, unseen⟩
      refine ⟨v, found, ?_⟩
      rw [(Problem.of_vehicle_eq_ok found).2, if_neg (by simpa using fresh)]
      refine ih.mpr ⟨known, distinct, fun route' later old => ?_⟩
      rcases List.mem_cons.mp old with same | old
      · exact once (List.mem_map.mpr ⟨route', later, same⟩)
      · exact unseen route' later old

/-- After some valid routes the check goes on with their vehicles in mind. -/
theorem checkRoutes_append {p : Problem α} {seen : List Text} {before : List (Route α)}
    (valid : checkRoutes p seen before = .ok ()) (rest : List (Route α)) :
    checkRoutes p seen (before ++ rest) = checkRoutes p ((before.map (·.vehicleId)).reverse ++ seen) rest := by
  induction before generalizing seen with
  | nil => rfl
  | cons route before ih =>
    rw [checkRoutes] at valid
    obtain ⟨v, found, valid⟩ := except_bind_eq_ok.mp valid
    rw [List.cons_append, checkRoutes, found, except_ok_bind]
    split at valid
    · exact absurd valid (by simp)
    · rename_i fresh
      rw [if_neg fresh, ih valid, (Problem.of_vehicle_eq_ok found).2]
      simp

/-- The first route that is not valid stops the check. -/
theorem exists_of_checkRoutes_eq_error {p : Problem α} {seen : List Text} {routes : List (Route α)} {fault : Fault}
    (failed : checkRoutes p seen routes = .error fault) :
    ∃ before route after, routes = before ++ route :: after ∧ checkRoutes p seen before = .ok ()
      ∧ ((route.vehicleId ∉ p.fleetIds ∧ fault = .unknownVehicle route.vehicleId)
        ∨ (route.vehicleId ∈ p.fleetIds ∧ (route.vehicleId ∈ before.map (·.vehicleId) ∨ route.vehicleId ∈ seen)
          ∧ fault = .secondRoute route.vehicleId)) := by
  induction routes generalizing seen with
  | nil => exact absurd failed (by simp [checkRoutes])
  | cons route rest ih =>
    rw [checkRoutes] at failed
    rcases except_bind_eq_error.mp failed with unknown | ⟨v, found, failed⟩
    · exact ⟨[], route, rest, rfl, rfl, Or.inl (Problem.vehicle_eq_error.mp unknown)⟩
    · have own := (Problem.of_vehicle_eq_ok found).2
      rw [own] at failed
      split at failed
      · rename_i again
        have known := Problem.exists_vehicle_iff.mp ⟨v, found⟩
        exact ⟨[], route, rest, rfl, rfl,
          Or.inr ⟨known, Or.inr (by simpa using again), (Except.error.inj failed).symm⟩⟩
      · rename_i fresh
        obtain ⟨before, later, after, rfl, valid, cause⟩ := ih failed
        refine ⟨route :: before, later, after, rfl, ?_, cause.imp_right ?_⟩
        · rw [checkRoutes, found, except_ok_bind, own, if_neg fresh, valid]
        · rintro ⟨known, again, same⟩
          refine ⟨known, ?_, same⟩
          rw [List.map_cons, List.mem_cons]
          rcases again with again | again
          · exact Or.inl (Or.inr again)
          · exact (List.mem_cons.mp again).imp_left Or.inl

/-- The ids of the jobs that a vehicle serves, none if it has no route. -/
def Solution.jobIdsOf (s : Solution α) (vehicleId : Text) : List Text :=
  ((s.routeFor? vehicleId).map Route.jobIds).getD []

/-- The time at which the route of a vehicle starts, if it has a route and a time is given. -/
def Solution.startTimeOf? (s : Solution α) (vehicleId : Text) : Option α :=
  (s.routeFor? vehicleId).bind (·.startTime)

section

variable [Quantity α] {p : Problem α} {s : Solution α} {v : Vehicle α} {state : RouteState α}

/-! ## The route of a vehicle -/

/-- The route of a vehicle is made of nothing but the jobs that it serves, its matrix, and the time at which it starts. -/
theorem currentRoute_eq (p : Problem α) (s : Solution α) (v : Vehicle α) :
    currentRoute p s v = (do
      let jobs ← (s.jobIdsOf v.id).mapM p.job
      let matrix ← p.matrixFor v
      RouteState.build v matrix jobs (s.startTimeOf? v.id)) :=
  rfl

theorem currentRoute_eq_ok :
    currentRoute p s v = .ok state ↔ ∃ jobs matrix, (((s.routeFor? v.id).map Route.jobIds).getD []).mapM p.job = .ok jobs
      ∧ p.matrixFor v = .ok matrix
      ∧ RouteState.build v matrix jobs ((s.routeFor? v.id).bind (·.startTime)) = .ok state := by
  simp only [currentRoute, except_bind_eq_ok]
  constructor
  · rintro ⟨jobs, served, matrix, found, built⟩
    exact ⟨jobs, matrix, served, found, built⟩
  · rintro ⟨jobs, matrix, served, found, built⟩
    exact ⟨jobs, served, matrix, found, built⟩

/-- The route of a vehicle is the current one, if its start and end can be shown as far as it is reachable. -/
theorem routeOf_eq_ok :
    routeOf p s v = .ok state ↔ currentRoute p s v = .ok state
      ∧ (state.base.reachable = true → showable state.base.startTime = .ok () ∧ showable state.base.endTime = .ok ()) := by
  rw [routeOf, except_bind_eq_ok]
  constructor
  · rintro ⟨state', current, shown⟩
    split at shown
    · obtain ⟨_, start, shown⟩ := except_bind_eq_ok.mp shown
      obtain ⟨_, finish, shown⟩ := except_bind_eq_ok.mp shown
      obtain rfl := Except.ok.inj shown
      exact ⟨current, fun _ => ⟨start, finish⟩⟩
    · rename_i broken
      obtain rfl := Except.ok.inj shown
      exact ⟨current, fun reachable => absurd reachable broken⟩
  · rintro ⟨current, shown⟩
    refine ⟨state, current, ?_⟩
    split
    · rename_i reachable
      obtain ⟨start, finish⟩ := shown reachable
      rw [start, finish]
      rfl
    · rfl

/-- The route of a vehicle is its own. -/
theorem vehicle_of_routeOf (found : routeOf p s v = .ok state) : state.vehicle = v := by
  obtain ⟨jobs, matrix, -, -, built⟩ := currentRoute_eq_ok.mp (routeOf_eq_ok.mp found).1
  exact (RouteState.build_eq_ok built).1

/-- The jobs on the route of a vehicle are jobs of the problem. -/
theorem mem_jobs_of_routeOf (route : routeOf p s v = .ok state) {job : Job α}
    (served : job ∈ state.jobs) : job ∈ p.jobs := by
  obtain ⟨jobs, matrix, found, -, built⟩ := currentRoute_eq_ok.mp (routeOf_eq_ok.mp route).1
  rw [(RouteState.build_eq_ok built).2.2.1] at served
  obtain ⟨id, -, found⟩ := mem_of_mapM_eq_ok found served
  exact (Problem.of_job_eq_ok found).1

/-! ## Evaluators -/

/-- Warnings apart, the routes of a fleet are those of its vehicles, one after the other. -/
theorem prepare_outcome (p : Problem α) (s : Solution α) (fleet : List (Vehicle α)) :
    (prepare p s fleet).outcome = fleet.mapM (routeOf p s) := by
  induction fleet with
  | nil => rfl
  | cons v rest ih =>
    simp only [prepare, Observed.outcome_bind, Observed.outcome_ofExcept, Observed.outcome_warn, Observed.outcome_pure, ih,
      List.mapM_cons, except_ok_bind, except_pure]

/-- The routes of a fleet are prepared if that of each vehicle is. -/
theorem prepare_eq_ok {fleet : List (Vehicle α)} {states : List (RouteState α)} :
    (prepare p s fleet).outcome = .ok states ↔ List.Forall₂ (fun v state => routeOf p s v = .ok state) fleet states := by
  rw [prepare_outcome, except_mapM_eq_ok]

/-- The routes of a fleet are those of its vehicles. -/
theorem vehicles_of_routes {fleet : List (Vehicle α)} {states : List (RouteState α)}
    (routes : List.Forall₂ (fun v state => routeOf p s v = .ok state) fleet states) :
    states.map (·.vehicle) = fleet := by
  induction routes with
  | nil => rfl
  | cons route _ ih => rw [List.map_cons, vehicle_of_routeOf route, ih]

theorem Evaluator.build_eq_ok {catalog : Catalog} {settings : DiagnosisSettings α} {e : Evaluator α} :
    (Evaluator.build p s catalog settings).outcome = .ok e ↔
      checkRoutes p [] s.routes = .ok () ∧ ∃ states, (prepare p s p.fleet).outcome = .ok states
        ∧ e = ⟨p, s, catalog, settings, states⟩ := by
  simp only [Evaluator.build, Observed.outcome_bind, Observed.outcome_ofExcept, Observed.outcome_pure,
    except_bind_eq_ok, Except.ok.injEq]
  constructor
  · rintro ⟨_, valid, states, prepared, rfl⟩
    exact ⟨valid, states, prepared, rfl⟩
  · rintro ⟨valid, states, prepared, rfl⟩
    exact ⟨(), valid, states, prepared, rfl⟩

end

end Leftover
