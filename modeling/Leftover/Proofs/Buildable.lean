/-
# When an evaluator can be built

An evaluator is built if the solution names nothing that does not exist and no vehicle twice, if every leg that is looked
up lies within its matrix, and if every route that gets through ends at a finite time. Legs beyond the first one without
a duration are not looked up. Otherwise the first fault counts: routes come first, then the vehicles of the fleet.

* `Prepares`, `exists_routeOf_iff` : when the route of a vehicle can be prepared
* `RouteFault`, `routeOf_eq_error_iff` : what stops it otherwise
* `Buildable`, `BuildFault`, `Evaluator.exists_build_iff` : the same for evaluators
-/
import Leftover.Proofs.Building
import Leftover.Proofs.LookedUpLegs
import Leftover.Proofs.Timekeeping

namespace Leftover

variable {α : Type} [Quantity α]

/-! ## The route of a vehicle -/

/-- The route of a vehicle can be prepared: its jobs are those of the problem, its profile has a matrix, the legs that
are looked up lie within that matrix, and the route ends at a finite time if it gets through. -/
structure Prepares (p : Problem α) (s : Solution α) (v : Vehicle α) : Prop where
  jobs : ∀ id ∈ s.jobIdsOf v.id, id ∈ p.jobs.map (·.id)
  matrix : v.profile ∈ p.matrices.map (·.1)
  approach : ∀ m, p.matrixFor v = .ok m → v.Approaches m
  legs : ∀ m jobs start, p.matrixFor v = .ok m → (s.jobIdsOf v.id).mapM p.job = .ok jobs →
    v.origin m (s.startTimeOf? v.id) = .ok start → Quantity.isFinite start.time = true →
    m.Covers (v.legs start.location jobs)
  ends : ∀ state, currentRoute p s v = .ok state → state.base.reachable = true →
    Quantity.isFinite state.base.endTime = true

/-- What stops the route of a vehicle from being prepared. -/
inductive RouteFault (p : Problem α) (s : Solution α) (v : Vehicle α) : Fault → Prop
  | unknownJob {before after : List Text} {id : Text} (ids : s.jobIdsOf v.id = before ++ id :: after)
      (known : ∀ earlier ∈ before, earlier ∈ p.jobs.map (·.id)) (unknown : id ∉ p.jobs.map (·.id)) :
      RouteFault p s v (.unknownJob id)
  | noMatrix (known : ∀ id ∈ s.jobIdsOf v.id, id ∈ p.jobs.map (·.id)) (missing : v.profile ∉ p.matrices.map (·.1)) :
      RouteFault p s v (.noMatrix v.profile v.id)
  | approach {m : Matrix α} (known : ∀ id ∈ s.jobIdsOf v.id, id ∈ p.jobs.map (·.id)) (matrix : p.matrixFor v = .ok m)
      (outside : ¬v.Approaches m) : RouteFault p s v .outsideMatrix
  | leg {m : Matrix α} {jobs : List (Job α)} {start : Place α} (matrix : p.matrixFor v = .ok m)
      (served : (s.jobIdsOf v.id).mapM p.job = .ok jobs) (begins : v.origin m (s.startTimeOf? v.id) = .ok start)
      (setsOut : Quantity.isFinite start.time = true) (outside : ¬m.Covers (v.legs start.location jobs)) :
      RouteFault p s v .outsideMatrix
  | endless {state : RouteState α} (current : currentRoute p s v = .ok state) (reachable : state.base.reachable = true)
      (endless : Quantity.isFinite state.base.endTime = false) : RouteFault p s v .endlessTime

section

variable {p : Problem α} {s : Solution α} {v : Vehicle α}

omit [Quantity α] in
theorem exists_jobs_iff : (∃ jobs, (s.jobIdsOf v.id).mapM p.job = .ok jobs) ↔ ∀ id ∈ s.jobIdsOf v.id, id ∈ p.jobs.map (·.id) := by
  rw [exists_mapM_iff]
  exact forall₂_congr fun id _ => Problem.exists_job_iff

/-- A route that can be prepared has no fault. -/
theorem Prepares.not_routeFault (prepares : Prepares p s v) {fault : Fault} : ¬RouteFault p s v fault := by
  intro failed
  cases failed with
  | @unknownJob before after id ids known unknown => exact unknown (prepares.jobs id (ids ▸ by simp))
  | noMatrix known missing => exact missing prepares.matrix
  | approach known matrix outside => exact outside (prepares.approach _ matrix)
  | leg matrix served begins setsOut outside => exact outside (prepares.legs _ _ _ matrix served begins setsOut)
  | endless current reachable endless =>
    rw [prepares.ends _ current reachable] at endless
    exact absurd endless (by simp)

theorem ofOrigin_eq_error {m : Matrix α} {jobs : List (Job α)} {start : Place α} {fault : Fault} :
    RouteState.ofOrigin v m jobs start = .error fault ↔ walk v m jobs start start.time = .error fault := by
  rw [← RouteState.ofOrigin_map_base, except_map_eq_error]

theorem showable_eq_ok {time : α} : showable time = .ok () ↔ Quantity.isFinite time = true := by
  rw [showable]
  split
  · rename_i finite
    exact iff_of_true rfl finite
  · rename_i endless
    exact iff_of_false (by simp) endless

/-- A route that gets through starts at a finite time. -/
theorem showable_startTime {state : RouteState α} (reachable : state.base.reachable = true) :
    showable state.base.startTime = .ok () := by
  obtain ⟨setsOut, home, -, -, same⟩ := walk_eq_reachable state.walk_eq reachable
  rw [same]
  exact showable_eq_ok.mpr setsOut

variable (square : ∀ entry ∈ p.matrices, entry.2.IsSquare)

include square

/-- If the route of a vehicle is prepared, nothing stops it. -/
theorem prepares_of_routeOf {state : RouteState α} (route : routeOf p s v = .ok state) : Prepares p s v := by
  obtain ⟨current, shown⟩ := routeOf_eq_ok.mp route
  obtain ⟨jobs, m, served, found, built⟩ := currentRoute_eq_ok.mp current
  obtain ⟨rfl, rfl, rfl, begun⟩ := RouteState.build_eq_ok built
  obtain ⟨entry, member, same⟩ := Problem.of_matrixFor_eq_ok found
  have square : state.matrix.IsSquare := same ▸ square entry member
  refine ⟨exists_jobs_iff.mp ⟨state.jobs, served⟩, Problem.exists_matrixFor_iff.mp ⟨_, found⟩, ?_, ?_, ?_⟩
  · intro m found'
    obtain rfl := Except.ok.inj (found.symm.trans found')
    exact (exists_origin_iff square _).mp ⟨_, begun⟩
  · intro m jobs start found' served' begun' setsOut
    obtain rfl := Except.ok.inj (found.symm.trans found')
    obtain rfl := Except.ok.inj (served.symm.trans served')
    obtain rfl := Except.ok.inj (begun.symm.trans begun')
    exact (exists_walk_iff square _ _ _).mp ⟨_, state.walk_eq⟩ setsOut
  · intro state' current' reachable
    obtain rfl := Except.ok.inj (current.symm.trans current')
    exact showable_eq_ok.mp (shown reachable).2

/-- If the current route of a vehicle is not found, this is for one of its faults. -/
theorem routeFault_of_currentRoute {fault : Fault} (failed : currentRoute p s v = .error fault) : RouteFault p s v fault := by
  rw [currentRoute_eq] at failed
  rcases except_bind_eq_error.mp failed with failed | ⟨jobs, served, failed⟩
  · obtain ⟨before, id, after, ids, known, failed⟩ := except_mapM_eq_error.mp failed
    obtain ⟨unknown, rfl⟩ := Problem.job_eq_error.mp failed
    exact .unknownJob ids (fun earlier member => Problem.exists_job_iff.mp (known earlier member)) unknown
  · have known := exists_jobs_iff.mp ⟨jobs, served⟩
    rcases except_bind_eq_error.mp failed with failed | ⟨m, found, failed⟩
    · obtain ⟨missing, rfl⟩ := Problem.matrixFor_eq_error.mp failed
      exact .noMatrix known missing
    · obtain ⟨entry, member, same⟩ := Problem.of_matrixFor_eq_ok found
      have square : m.IsSquare := same ▸ square entry member
      rcases except_bind_eq_error.mp failed with failed | ⟨start, begun, failed⟩
      · obtain rfl := origin_eq_error failed
        refine .approach known found fun inside => ?_
        obtain ⟨start, begun⟩ := (exists_origin_iff square (s.startTimeOf? v.id)).mpr inside
        exact absurd (begun.symm.trans failed) (by simp)
      · have failed := ofOrigin_eq_error.mp failed
        obtain rfl := walk_eq_error failed
        have stopped : ¬∃ base, walk v m jobs start start.time = .ok base := by
          rintro ⟨base, walked⟩
          exact absurd (walked.symm.trans failed) (by simp)
        rw [exists_walk_iff square, Classical.not_imp] at stopped
        exact .leg found served begun stopped.1 stopped.2

/-- What stops the current route from being found, before its end is looked at. -/
theorem currentRoute_of_walk_fault {m : Matrix α} {jobs : List (Job α)} {start : Place α}
    (found : p.matrixFor v = .ok m) (served : (s.jobIdsOf v.id).mapM p.job = .ok jobs)
    (begun : v.origin m (s.startTimeOf? v.id) = .ok start) (setsOut : Quantity.isFinite start.time = true)
    (outside : ¬m.Covers (v.legs start.location jobs)) : currentRoute p s v = .error .outsideMatrix := by
  obtain ⟨entry, member, same⟩ := Problem.of_matrixFor_eq_ok found
  have square : m.IsSquare := same ▸ square entry member
  rw [currentRoute_eq, served, except_ok_bind, found, except_ok_bind, RouteState.build, begun, except_ok_bind,
    ofOrigin_eq_error]
  cases walked : walk v m jobs start start.time with
  | error fault => rw [walk_eq_error walked]
  | ok base => exact absurd ((exists_walk_iff square _ _ _).mp ⟨base, walked⟩ setsOut) outside

end

section

variable [Timekeeping α] {p : Problem α} {s : Solution α} {v : Vehicle α}

variable (durations : ∀ job ∈ p.jobs, 0 ≤ job.duration)

include durations

/-- If a route that gets through does not end at a finite time, it never ends. -/
theorem showable_endTime {state : RouteState α} (current : currentRoute p s v = .ok state)
    (reachable : state.base.reachable = true) (endless : Quantity.isFinite state.base.endTime = false) :
    showable state.base.endTime = .error .endlessTime := by
  have served : ∀ job ∈ state.jobs, 0 ≤ job.duration := by
    intro job member
    obtain ⟨jobs, m, found, -, built⟩ := currentRoute_eq_ok.mp current
    obtain ⟨-, -, rfl, -⟩ := RouteState.build_eq_ok built
    obtain ⟨id, -, found⟩ := mem_of_mapM_eq_ok found member
    exact durations job (Problem.of_job_eq_ok found).1
  have defined : Quantity.isUndefined state.base.endTime = false := by
    rcases walk_isAhead state.walk_eq reachable served with finite | later
    · exact absurd (endless.symm.trans finite) (by simp)
    · exact Timekeeping.isUndefined_of_pos _ later
  rw [showable, if_neg (by simp [endless]), if_neg (by simp [defined])]

theorem routeOf_of_endless {state : RouteState α} (current : currentRoute p s v = .ok state)
    (reachable : state.base.reachable = true) (endless : Quantity.isFinite state.base.endTime = false) :
    routeOf p s v = .error .endlessTime := by
  rw [routeOf, current, except_ok_bind, if_pos reachable, showable_startTime reachable,
    showable_endTime durations current reachable endless]
  rfl

variable (square : ∀ entry ∈ p.matrices, entry.2.IsSquare)

include square

/-- The route of a vehicle fails to be prepared just for its faults. -/
theorem routeOf_eq_error_iff {fault : Fault} : routeOf p s v = .error fault ↔ RouteFault p s v fault := by
  constructor
  · intro failed
    rw [routeOf] at failed
    rcases except_bind_eq_error.mp failed with failed | ⟨state, current, failed⟩
    · exact routeFault_of_currentRoute square failed
    · split at failed
      · rename_i reachable
        rw [showable_startTime reachable] at failed
        cases finite : Quantity.isFinite state.base.endTime with
        | true =>
          rw [showable_eq_ok.mpr finite] at failed
          exact absurd failed (by simp)
        | false =>
          rw [showable_endTime durations current reachable finite] at failed
          obtain rfl := Except.error.inj failed
          exact .endless current reachable finite
      · exact absurd failed (by simp)
  · intro failed
    cases failed with
    | unknownJob ids known unknown =>
      have stops : (s.jobIdsOf v.id).mapM p.job = .error (.unknownJob _) := except_mapM_eq_error.mpr
        ⟨_, _, _, ids, fun earlier member => Problem.exists_job_iff.mpr (known earlier member),
          Problem.job_eq_error.mpr ⟨unknown, rfl⟩⟩
      rw [routeOf, currentRoute_eq, stops]
      rfl
    | noMatrix known missing =>
      obtain ⟨jobs, served⟩ := exists_jobs_iff.mpr known
      rw [routeOf, currentRoute_eq, served, except_ok_bind, Problem.matrixFor_eq_error.mpr ⟨missing, rfl⟩]
      rfl
    | @approach m known found outside =>
      obtain ⟨entry, member, same⟩ := Problem.of_matrixFor_eq_ok found
      have square : m.IsSquare := same ▸ square entry member
      obtain ⟨jobs, served⟩ := exists_jobs_iff.mpr known
      rw [routeOf, currentRoute_eq, served, except_ok_bind, found, except_ok_bind, RouteState.build]
      cases begun : v.origin m (s.startTimeOf? v.id) with
      | error fault => rw [origin_eq_error begun]; rfl
      | ok start => exact absurd ((exists_origin_iff square _).mp ⟨start, begun⟩) outside
    | leg found served begun setsOut outside =>
      rw [routeOf, currentRoute_of_walk_fault square found served begun setsOut outside]
      rfl
    | endless current reachable endless => exact routeOf_of_endless durations current reachable endless

/-- The route of a vehicle is prepared just when nothing stops it. -/
theorem exists_routeOf_iff : (∃ state, routeOf p s v = .ok state) ↔ Prepares p s v := by
  constructor
  · rintro ⟨state, route⟩
    exact prepares_of_routeOf square route
  · intro prepares
    cases route : routeOf p s v with
    | ok state => exact ⟨state, rfl⟩
    | error fault => exact absurd ((routeOf_eq_error_iff durations square).mp route) prepares.not_routeFault

end

/-! ## Evaluators -/

/-- Every route is of a vehicle of the fleet, and no two are of the same one. -/
structure ValidRoutes (p : Problem α) (routes : List (Route α)) : Prop where
  known : ∀ route ∈ routes, route.vehicleId ∈ p.fleetIds
  once : (routes.map (·.vehicleId)).Nodup

/-- An evaluator can be built on a solution: its routes are valid and their jobs are those of the problem; each vehicle
of the fleet has a matrix, in which the way to its dispatch lies, and the legs of its route as far as they are looked up;
and each route that gets through ends at a finite time. -/
structure Buildable (p : Problem α) (s : Solution α) : Prop where
  routes : ValidRoutes p s.routes
  jobs : ∀ route ∈ s.routes, ∀ id ∈ route.jobIds, id ∈ p.jobs.map (·.id)
  matrices : ∀ v ∈ p.fleet, v.profile ∈ p.matrices.map (·.1)
  approaches : ∀ v ∈ p.fleet, ∀ m, p.matrixFor v = .ok m → v.Approaches m
  legs : ∀ v ∈ p.fleet, ∀ m jobs start, p.matrixFor v = .ok m → (s.jobIdsOf v.id).mapM p.job = .ok jobs →
    v.origin m (s.startTimeOf? v.id) = .ok start → Quantity.isFinite start.time = true →
    m.Covers (v.legs start.location jobs)
  ends : ∀ v ∈ p.fleet, ∀ state, currentRoute p s v = .ok state → state.base.reachable = true →
    Quantity.isFinite state.base.endTime = true

/-- What stops an evaluator from being built: the first route that is not valid or else, for the first vehicle whose
route cannot be prepared, what stops that. -/
inductive BuildFault (p : Problem α) (s : Solution α) : Fault → Prop
  | unknownVehicle {before after : List (Route α)} {route : Route α} (routes : s.routes = before ++ route :: after)
      (valid : ValidRoutes p before) (unknown : route.vehicleId ∉ p.fleetIds) :
      BuildFault p s (.unknownVehicle route.vehicleId)
  | secondRoute {before after : List (Route α)} {route : Route α} (routes : s.routes = before ++ route :: after)
      (valid : ValidRoutes p before) (known : route.vehicleId ∈ p.fleetIds)
      (again : route.vehicleId ∈ before.map (·.vehicleId)) : BuildFault p s (.secondRoute route.vehicleId)
  | vehicle {before after : List (Vehicle α)} {v : Vehicle α} {fault : Fault} (valid : ValidRoutes p s.routes)
      (fleet : p.fleet = before ++ v :: after) (prepared : ∀ earlier ∈ before, Prepares p s earlier)
      (stopped : RouteFault p s v fault) : BuildFault p s fault

section

variable {p : Problem α} {s : Solution α}

omit [Quantity α] in
theorem checkRoutes_eq_ok_iff {routes : List (Route α)} : checkRoutes p [] routes = .ok () ↔ ValidRoutes p routes := by
  rw [checkRoutes_eq_ok]
  constructor
  · rintro ⟨known, once, -⟩
    exact ⟨fun route member => Problem.exists_vehicle_iff.mp (known route member), once⟩
  · rintro ⟨known, once⟩
    exact ⟨fun route member => Problem.exists_vehicle_iff.mpr (known route member), once, by simp⟩

omit [Quantity α] in
/-- The jobs of valid routes are those of the vehicles of the fleet. -/
theorem ValidRoutes.jobs_iff (valid : ValidRoutes p s.routes) (known : Text → Prop) :
    (∀ route ∈ s.routes, ∀ id ∈ route.jobIds, known id) ↔ ∀ v ∈ p.fleet, ∀ id ∈ s.jobIdsOf v.id, known id := by
  constructor
  · intro all v _ id served
    rw [Solution.jobIdsOf] at served
    cases found : s.routeFor? v.id with
    | none =>
      rw [found] at served
      exact absurd served (by simp)
    | some route =>
      rw [found] at served
      exact all route (List.mem_of_find?_eq_some found) id served
  · intro all route member id served
    obtain ⟨v, inFleet, same⟩ := List.mem_map.mp (valid.known route member)
    have found : s.routeFor? v.id = some route := by
      rw [same]
      exact find?_key_eq_some valid.once member
    refine all v inFleet id ?_
    rw [Solution.jobIdsOf, found]
    exact served

/-- An evaluator can be built if the routes are valid and the route of each vehicle can be prepared. -/
theorem buildable_iff : Buildable p s ↔ ValidRoutes p s.routes ∧ ∀ v ∈ p.fleet, Prepares p s v := by
  constructor
  · intro h
    have jobs := (h.routes.jobs_iff _).mp h.jobs
    exact ⟨h.routes, fun v hv => ⟨jobs v hv, h.matrices v hv, h.approaches v hv, h.legs v hv, h.ends v hv⟩⟩
  · rintro ⟨routes, prepares⟩
    exact ⟨routes, (routes.jobs_iff _).mpr fun v hv => (prepares v hv).jobs, fun v hv => (prepares v hv).matrix,
      fun v hv => (prepares v hv).approach, fun v hv => (prepares v hv).legs, fun v hv => (prepares v hv).ends⟩

theorem Evaluator.build_eq_error {catalog : Catalog} {settings : DiagnosisSettings α} {fault : Fault} :
    (Evaluator.build p s catalog settings).outcome = .error fault ↔ checkRoutes p [] s.routes = .error fault
      ∨ (checkRoutes p [] s.routes = .ok () ∧ p.fleet.mapM (routeOf p s) = .error fault) := by
  simp only [Evaluator.build, Observed.outcome_bind, Observed.outcome_ofExcept, Observed.outcome_pure, prepare_outcome,
    except_bind_eq_error]
  constructor
  · rintro (failed | ⟨_, valid, failed | ⟨states, -, none⟩⟩)
    · exact Or.inl failed
    · exact Or.inr ⟨valid, failed⟩
    · exact absurd none (by simp)
  · rintro (failed | ⟨valid, failed⟩)
    · exact Or.inl failed
    · exact Or.inr ⟨(), valid, Or.inl failed⟩

/-- The check of the routes fails with the fault of the first one that is not valid. -/
theorem buildFault_of_checkRoutes {fault : Fault} (failed : checkRoutes p [] s.routes = .error fault) :
    BuildFault p s fault := by
  obtain ⟨before, route, after, routes, valid, cause⟩ := exists_of_checkRoutes_eq_error failed
  have valid := checkRoutes_eq_ok_iff.mp valid
  rcases cause with ⟨unknown, rfl⟩ | ⟨known, again, rfl⟩
  · exact .unknownVehicle routes valid unknown
  · exact .secondRoute routes valid known (again.resolve_right (by simp))

omit [Quantity α] in
theorem checkRoutes_of_split {before after : List (Route α)} {route : Route α}
    (routes : s.routes = before ++ route :: after) (valid : ValidRoutes p before) :
    checkRoutes p [] s.routes = checkRoutes p (before.map (·.vehicleId)).reverse (route :: after) := by
  rw [routes, checkRoutes_append (checkRoutes_eq_ok_iff.mpr valid), List.append_nil]

omit [Quantity α] in
/-- The jobs that are found are those with the ids that are asked for. -/
theorem ids_of_mapM_job {ids : List Text} {jobs : List (Job α)} (found : ids.mapM p.job = .ok jobs) :
    jobs.map (·.id) = ids := by
  induction ids generalizing jobs with
  | nil =>
    obtain rfl := Except.ok.inj found
    rfl
  | cons id rest ih =>
    rw [List.mapM_cons] at found
    obtain ⟨job, first, found⟩ := except_bind_eq_ok.mp found
    obtain ⟨others, later, found⟩ := except_bind_eq_ok.mp found
    obtain rfl := Except.ok.inj found
    rw [List.map_cons, (Problem.of_job_eq_ok first).2, ih later]

/-- The route of a vehicle is its own, and serves its jobs. -/
theorem of_routeOf_eq_ok {v : Vehicle α} {state : RouteState α} (route : routeOf p s v = .ok state) :
    state.vehicle = v ∧ state.jobs.map (·.id) = s.jobIdsOf v.id := by
  obtain ⟨jobs, m, served, -, built⟩ := currentRoute_eq_ok.mp (routeOf_eq_ok.mp route).1
  obtain ⟨own, -, rfl, -⟩ := RouteState.build_eq_ok built
  exact ⟨own, ids_of_mapM_job served⟩

end

/-- Let the matrices of a problem be square, and no job take negative time. An evaluator is built on a solution just when
it can be, and it then holds a route for each vehicle of the fleet, through the jobs of that vehicle or through none.
Otherwise building it fails, and with no other fault than the first one that stops it. -/
theorem Evaluator.exists_build_iff [Timekeeping α] {p : Problem α} (square : ∀ entry ∈ p.matrices, entry.2.IsSquare)
    (durations : ∀ job ∈ p.jobs, 0 ≤ job.duration) (s : Solution α) (catalog : Catalog) (settings : DiagnosisSettings α) :
    ((∃ e, (Evaluator.build p s catalog settings).outcome = .ok e) ↔ Buildable p s)
      ∧ (∀ fault, (Evaluator.build p s catalog settings).outcome = .error fault ↔ BuildFault p s fault)
      ∧ ∀ e, (Evaluator.build p s catalog settings).outcome = .ok e →
        List.Forall₂ (fun v state => state.vehicle = v ∧ state.jobs.map (·.id) = s.jobIdsOf v.id) p.fleet e.states := by
  have route_iff := fun v => exists_routeOf_iff (s := s) (v := v) durations square
  refine ⟨?_, fun fault => ?_, fun e built => ?_⟩
  · rw [buildable_iff]
    constructor
    · rintro ⟨e, built⟩
      obtain ⟨valid, states, prepared, -⟩ := Evaluator.build_eq_ok.mp built
      rw [prepare_outcome] at prepared
      refine ⟨checkRoutes_eq_ok_iff.mp valid, fun v inFleet => ?_⟩
      exact (route_iff v).mp (exists_mapM_iff.mp ⟨states, prepared⟩ v inFleet)
    · rintro ⟨valid, prepares⟩
      obtain ⟨states, prepared⟩ := exists_mapM_iff.mpr fun v inFleet => (route_iff v).mpr (prepares v inFleet)
      rw [← prepare_outcome] at prepared
      exact ⟨_, Evaluator.build_eq_ok.mpr ⟨checkRoutes_eq_ok_iff.mpr valid, states, prepared, rfl⟩⟩
  · rw [Evaluator.build_eq_error]
    constructor
    · rintro (failed | ⟨valid, failed⟩)
      · exact buildFault_of_checkRoutes failed
      · obtain ⟨before, v, after, fleet, prepared, failed⟩ := except_mapM_eq_error.mp failed
        exact .vehicle (checkRoutes_eq_ok_iff.mp valid) fleet
          (fun earlier member => (route_iff earlier).mp (prepared earlier member))
          ((routeOf_eq_error_iff durations square).mp failed)
    · intro failed
      cases failed with
      | unknownVehicle routes valid unknown =>
        refine Or.inl ?_
        rw [checkRoutes_of_split routes valid, checkRoutes, Problem.vehicle_eq_error.mpr ⟨unknown, rfl⟩]
        rfl
      | secondRoute routes valid known again =>
        refine Or.inl ?_
        obtain ⟨v, found⟩ := Problem.exists_vehicle_iff.mpr known
        rw [checkRoutes_of_split routes valid, checkRoutes, found, except_ok_bind, (Problem.of_vehicle_eq_ok found).2,
          if_pos (by simpa using again)]
      | vehicle valid fleet prepared stopped =>
        refine Or.inr ⟨checkRoutes_eq_ok_iff.mpr valid, except_mapM_eq_error.mpr ⟨_, _, _, fleet, ?_, ?_⟩⟩
        · exact fun earlier member => (route_iff earlier).mpr (prepared earlier member)
        · exact (routeOf_eq_error_iff durations square).mpr stopped
  · obtain ⟨-, states, prepared, rfl⟩ := Evaluator.build_eq_ok.mp built
    exact (prepare_eq_ok.mp prepared).imp fun v state route => of_routeOf_eq_ok route

/-! ### A lorry

A vehicle that is loaded at another place than it starts from, and plans in doubles. -/

/-- Three places; there is no path from the first one to the second one. -/
def oneWay : Matrix Float where
  durations := [[some 0, none, some 4], [some 7, some 0, none], [some 4, none, some 0]]
  distances := [[some 0, none, some 9], [some 9, some 0, none], [some 9, none, some 0]]

/-- A vehicle that starts at the third place, and is loaded at the first one. -/
def lorry : Vehicle Float where
  id := "lorry"
  profile := "truck"
  skills := []
  capacity := []
  shift := ⟨0, 600⟩
  startLocation := 2
  endLocation := some 0
  maxDistance := none
  maxDuration := none
  maxTourSize := none
  dispatch := some ⟨some 0, ⟨0, 100⟩, 10⟩
  breaks := []
  allowedAreas := []

/-- A job without any constraints. -/
def errand (name : String) (location : Nat) (duration : Float) : Job Float where
  id := name
  location := location
  coordinates := none
  duration := duration
  skills := []
  demand := []
  kind := .delivery
  windows := []
  order := none
  areaIds := []
  breakEligible := true

/-- A job outside the matrix, one without a path to it, and one that takes so long that two of them overflow. -/
def lorryPlan : Problem Float where
  jobs := [errand "near" 2 5, errand "far" 1 5, errand "outside" 3 5, errand "long" 0 1.0e308]
  fleet := [lorry]
  relations := []
  matrices := [("truck", oneWay)]

/-- The lorry sets out for some jobs. -/
def lorrySolution (ids : List Text) : Solution Float where
  routes := [⟨"lorry", none, ids.map Stop.bare, none, none⟩]
  unassigned := []
  hints := []

theorem exists_build_iff_lorry :
    (∀ entry ∈ lorryPlan.matrices, entry.2.IsSquare) ∧ (∀ job ∈ lorryPlan.jobs, 0 ≤ job.duration)
      ∧ Buildable lorryPlan (lorrySolution ["near", "far", "outside"])
      ∧ (∃ e state, (Evaluator.build lorryPlan (lorrySolution ["near", "far", "outside"]) (.without []) {}).outcome = .ok e
        ∧ e.states = [state] ∧ state.jobs.map (·.id) = ["near", "far", "outside"])
      ∧ BuildFault lorryPlan (lorrySolution ["near", "outside", "far"]) .outsideMatrix
      ∧ BuildFault lorryPlan (lorrySolution ["long", "long"]) .endlessTime
      ∧ (Evaluator.build lorryPlan (lorrySolution ["near", "lost", "outside"]) (.without []) {}).outcome
        = .error (.unknownJob "lost") := by
  have square : ∀ entry ∈ lorryPlan.matrices, entry.2.IsSquare := by
    have made : Matrix.make oneWay.durations oneWay.distances = .ok oneWay := rfl
    intro entry member
    obtain rfl := List.mem_singleton.mp member
    exact Matrix.isSquare_of_make made
  have durations : ∀ job ∈ lorryPlan.jobs, 0 ≤ job.duration := by decide +kernel
  have law := fun ids => Evaluator.exists_build_iff square durations (lorrySolution ids) (.without []) {}
  have one_route : ∀ ids, ValidRoutes lorryPlan (lorrySolution ids).routes := by
    intro ids
    refine ⟨fun route member => ?_, List.nodup_singleton _⟩
    obtain rfl := List.mem_singleton.mp member
    exact List.mem_singleton.mpr rfl
  have fails : ∀ ids fault, ((Evaluator.build lorryPlan (lorrySolution ids) (.without []) {}).outcome.map fun _ => ())
      = .error fault → BuildFault lorryPlan (lorrySolution ids) fault :=
    fun ids fault failed => ((law ids).2.1 fault).mp (except_map_eq_error.mp failed)
  -- the leg to the second place ends the look-ups, so the third job is never looked for in the matrix
  have built : ∃ e, (Evaluator.build lorryPlan (lorrySolution ["near", "far", "outside"]) (.without []) {}).outcome = .ok e := by
    have succeeds : ((Evaluator.build lorryPlan (lorrySolution ["near", "far", "outside"]) (.without []) {}).outcome.map
        fun _ => ()) = .ok () := by decide +kernel
    obtain ⟨e, built, -⟩ := except_map_eq_ok.mp succeeds
    exact ⟨e, built⟩
  refine ⟨square, durations, (law _).1.mp built, ?_, fails _ _ (by decide +kernel), fails _ _ (by decide +kernel), ?_⟩
  · obtain ⟨e, built⟩ := built
    obtain ⟨state, others, ⟨-, ids⟩, none, states⟩ := List.forall₂_cons_left_iff.mp ((law _).2.2 e built)
    obtain rfl := List.forall₂_nil_left_iff.mp none
    exact ⟨e, state, built, states, ids⟩
  · have ids : (lorrySolution ["near", "lost", "outside"]).jobIdsOf lorry.id = ["near"] ++ "lost" :: ["outside"] := rfl
    have lost : RouteFault lorryPlan (lorrySolution ["near", "lost", "outside"]) lorry (.unknownJob "lost") :=
      .unknownJob ids (by decide) (by decide)
    have first : lorryPlan.fleet = [] ++ lorry :: [] := rfl
    exact ((law _).2.1 _).mpr (.vehicle (one_route _) first (by simp) lost)

end Leftover
