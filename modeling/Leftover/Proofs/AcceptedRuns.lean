/-
# Runs of accepted insertions

Jobs are put into a route one after the other, each where all checks let it in. A route that is valid at the start is
valid in the end, and an audit finds nothing wrong with it.

* `passes_of_isValid` : the audit of a valid route
* `AcceptedRun` : any number of accepted insertions
* `RouteState.isSound_of_accepted` : what they leave behind
-/
import Leftover.Audit
import Leftover.Proofs.Survey
import Leftover.Proofs.Validity

namespace Leftover

/-! ## Audits -/

/-- The route of a vehicle through jobs, with no figure reported. -/
def bareRoute {α : Type} (v : Vehicle α) (startTime : Option α) (jobs : List (Job α)) : Route α where
  vehicleId := v.id
  startTime := startTime
  stops := jobs.map fun job => .bare job.id
  distance := none
  duration := none

namespace Problem

/-- A vehicle with its matrix, and jobs, are found in the problem. -/
structure Holds {α : Type} (p : Problem α) (v : Vehicle α) (m : Matrix α) (jobs : List (Job α)) : Prop where
  vehicle : p.vehicle v.id = .ok v
  matrix : p.matrixFor v = .ok m
  jobs : ∀ job ∈ jobs, p.job job.id = .ok job

/-- An audit finds nothing where there is no other route, and nothing about the vehicle of the route where that has no
other one. -/
structure Passes {α : Type} [Quantity α] (p : Problem α) (r : Route α) : Prop where
  alone : ∀ s : Solution α, s.routes = [r] → limitViolations p s = .ok []
  among : ∀ s : Solution α, (∀ r' ∈ s.routes, r'.vehicleId = r.vehicleId → r' = r) →
    ∀ found, limitViolations p s = .ok found → ∀ x ∈ found, x.vehicleId ≠ r.vehicleId

end Problem

/-- A limit that is kept is not exceeded. -/
theorem exceeding_eq_nil {v : Vehicle Exact} {limit : Limit} {expected : Option Exact} {actual : Exact}
    (kept : ∀ most ∈ expected, actual ≤ most) : exceeding v limit expected actual = [] := by
  unfold exceeding
  cases expected with
  | none => rfl
  | some most =>
    have le := kept most rfl
    obtain ⟨actual_defined, most_defined⟩ := Exact.isDefined_of_le le
    exact if_neg ((Exact.not_lt most_defined actual_defined).mpr le)

theorem exceedingSize_eq_nil {α : Type} [Quantity α] {v : Vehicle α} {stops : Nat}
    (kept : ∀ most ∈ v.maxTourSize, stops ≤ most) : exceedingSize v stops = [] := by
  unfold exceedingSize
  cases limited : v.maxTourSize with
  | none => rfl
  | some most =>
    exact if_neg (not_lt.mpr (kept most limited))

/-- The audit of a valid route without figures. -/
theorem routeViolations_eq_nil {p : Problem Exact} {v : Vehicle Exact} {m : Matrix Exact} {jobs : List (Job Exact)}
    {startTime : Option Exact} {s : RouteState Exact} (built : RouteState.build v m jobs startTime = .ok s)
    (valid : s.IsValid) (held : p.Holds v m jobs) : routeViolations p (bareRoute v startTime jobs) = .ok [] := by
  obtain ⟨rfl, rfl, rfl, -⟩ := RouteState.build_eq_ok built
  have ids : (bareRoute s.vehicle startTime s.jobs).jobIds = s.jobs.map (·.id) := by
    simp [bareRoute, Route.jobIds, Stop.bare]
  have totals : routeTotals p s.vehicle (bareRoute s.vehicle startTime s.jobs)
      = .ok (s.base.distance, s.base.duration) := by
    have rebuilt : RouteState.build s.vehicle s.matrix s.jobs (bareRoute s.vehicle startTime s.jobs).startTime = .ok s :=
      built
    show ((bareRoute s.vehicle startTime s.jobs).jobIds.mapM p.job >>= fun jobs => _) = _
    rw [ids, Problem.mapM_job held.jobs, except_ok_bind, held.matrix, except_ok_bind, rebuilt]
    rfl
  have stops : (bareRoute s.vehicle startTime s.jobs).stops.length = s.size := by simp [bareRoute, RouteState.size]
  have found : p.vehicle (bareRoute s.vehicle startTime s.jobs).vehicleId = .ok s.vehicle := held.vehicle
  simp only [routeViolations, found, totals, stops, except_ok_bind, exceeding_eq_nil valid.distance_le,
    exceeding_eq_nil valid.duration_le, exceedingSize_eq_nil valid.size_le]
  rfl

/-- Violations of a route are told of its vehicle. -/
theorem vehicleId_of_mem_routeViolations {α : Type} [Quantity α] {p : Problem α} {r : Route α}
    {found : List (LimitViolation α)} (audited : routeViolations p r = .ok found) {x : LimitViolation α}
    (member : x ∈ found) : x.vehicleId = r.vehicleId := by
  obtain ⟨v, present, audited⟩ := except_bind_eq_ok.mp audited
  obtain ⟨⟨distance, duration⟩, -, audited⟩ := except_bind_eq_ok.mp audited
  obtain rfl := Except.ok.inj audited
  rw [← (Problem.of_vehicle_eq_ok present).2]
  have of_limit : ∀ limit expected actual, x ∈ exceeding v limit expected actual → x.vehicleId = v.id := by
    intro limit expected actual h
    unfold exceeding at h
    split at h
    · exact absurd h (by simp)
    · split at h
      · rw [List.mem_singleton.mp h]
      · exact absurd h (by simp)
  rcases List.mem_append.mp member with h | h
  · rcases List.mem_append.mp h with h | h
    · exact of_limit _ _ _ h
    · exact of_limit _ _ _ h
  · unfold exceedingSize at h
    split at h
    · exact absurd h (by simp)
    · split at h
      · rw [List.mem_singleton.mp h]
      · exact absurd h (by simp)

/-- An audit finds nothing wrong with a valid route without figures. -/
theorem passes_of_isValid {p : Problem Exact} {v : Vehicle Exact} {m : Matrix Exact} {jobs : List (Job Exact)}
    {startTime : Option Exact} {s : RouteState Exact} (built : RouteState.build v m jobs startTime = .ok s)
    (valid : s.IsValid) (held : p.Holds v m jobs) : p.Passes (bareRoute v startTime jobs) where
  alone := by
    intro solution only
    rw [limitViolations, only, List.mapM_cons, routeViolations_eq_nil built valid held]
    rfl
  among := by
    intro solution only found audited x member same
    obtain ⟨lists, each, audited⟩ := except_bind_eq_ok.mp audited
    obtain rfl := Except.ok.inj audited
    obtain ⟨list, listed, member⟩ := List.mem_flatten.mp member
    obtain ⟨r, driven, found⟩ := mem_of_mapM_eq_ok each listed
    -- a violation of the vehicle comes from its only route, which has none
    have id_eq := vehicleId_of_mem_routeViolations found member
    rw [only r driven (id_eq.symm.trans same), routeViolations_eq_nil built valid held] at found
    obtain rfl := Except.ok.inj found
    exact absurd member (by simp)

/-! ## Runs -/

/-- The jobs of a route after any number of insertions, each accepted by all checks on the route as it is by then. -/
inductive AcceptedRun [Plane Exact] (p : Problem Exact) (v : Vehicle Exact) (m : Matrix Exact) (startTime : Option Exact)
    (jobs : List (Job Exact)) : List (Job Exact) → Prop where
  | start : AcceptedRun p v m startTime jobs jobs
  | insert {others : List (Job Exact)} {s : RouteState Exact} {job : Job Exact} {k : Nat}
    (run : AcceptedRun p v m startTime jobs others) (built : RouteState.build v m others startTime = .ok s)
    (finite : job.IsFinite) (inside : k ≤ others.length)
    (accepted : (⟨job, s, k, p⟩ : Insertion Exact).IsAccepted) :
    AcceptedRun p v m startTime jobs (insertAt others k job)

/-- The route of a vehicle through jobs can be built and is valid, and an audit finds nothing wrong with it. -/
def Vehicle.IsSound (v : Vehicle Exact) (m : Matrix Exact) (startTime : Option Exact) (jobs : List (Job Exact)) : Prop :=
  ∃ s, RouteState.build v m jobs startTime = .ok s ∧ s.IsValid
    ∧ ∀ p : Problem Exact, p.Holds v m jobs → p.Passes (bareRoute v startTime jobs)

namespace RouteState

variable {v : Vehicle Exact} {m : Matrix Exact} {jobs : List (Job Exact)} {startTime : Option Exact}

theorem IsValid.isSound {s : RouteState Exact} (valid : s.IsValid) (built : build v m jobs startTime = .ok s) :
    v.IsSound m startTime jobs :=
  ⟨s, built, valid, fun _ held => passes_of_isValid built valid held⟩

theorem isFinite_of_acceptedRun [Plane Exact] {p : Problem Exact} (finite : ∀ job ∈ jobs, job.IsFinite) {others : List (Job Exact)}
    (run : AcceptedRun p v m startTime jobs others) : ∀ job ∈ others, job.IsFinite := by
  induction run with
  | start => exact finite
  | insert run built finite_job inside accepted ih =>
    rw [insertAt, upTo_natCast, onward_natCast, List.forall_mem_append, List.forall_mem_cons]
    exact ⟨fun job member => ih job (List.mem_of_mem_take member), finite_job,
      fun job member => ih job (List.mem_of_mem_drop member)⟩

/-- A job that all checks let in leaves a valid route valid, with nothing for an audit to find; and so does any number
of jobs, one after the other. -/
theorem isSound_of_accepted [Plane Exact] {s : RouteState Exact} (built : build v m jobs startTime = .ok s) (valid : s.IsValid)
    (finite_vehicle : v.IsFinite) (finite : ∀ job ∈ jobs, job.IsFinite) (p : Problem Exact) :
    (∀ (job : Job Exact) (k : Nat), job.IsFinite → k ≤ jobs.length →
        (⟨job, s, k, p⟩ : Insertion Exact).IsAccepted → v.IsSound m startTime (insertAt jobs k job))
      ∧ ∀ others, AcceptedRun p v m startTime jobs others → v.IsSound m startTime others := by
  constructor
  · intro job k finite_job inside accepted
    obtain ⟨t, rebuilt, valid'⟩ := valid.insert built finite_vehicle finite finite_job inside accepted
    exact valid'.isSound rebuilt
  · intro others run
    induction run with
    | start => exact valid.isSound built
    | insert run built' finite_job inside accepted ih =>
      -- the route that the next job is put into is the one that is known to be valid
      obtain ⟨t, known, valid_t, -⟩ := ih
      obtain rfl := Except.ok.inj (known.symm.trans built')
      obtain ⟨u, rebuilt, valid_u⟩ := valid_t.insert built' finite_vehicle (isFinite_of_acceptedRun finite run) finite_job
        inside accepted
      exact valid_u.isSound rebuilt

/-! ### The shuttle takes one more parcel -/

theorem isValid_shuttleRoute : shuttleRoute.IsValid where
  reachable := rfl
  onTime := by decide +kernel
  endTime_le := by decide +kernel
  duration_le := by decide +kernel
  distance_le := by decide +kernel
  loads_fit := by decide +kernel
  size_le := by decide +kernel
  breaks_fit := by decide +kernel
  inOrder := by simp [InOrder, shuttleRoute]

theorem isFinite_shuttle : shuttle.IsFinite where
  capacity := by decide
  closes := rfl
  maxDuration := by decide
  maxDistance := by decide

theorem isFinite_parcel (name : String) : (parcel name).IsFinite where
  duration := rfl
  demand := by simp [parcel]
  opens := by simp [parcel]
  closes := by simp [parcel]

theorem isSound_of_accepted_shuttle :
    shuttleRoute.IsValid ∧ (⟨parcel "b", shuttleRoute, (1 : Nat), shuttlePlan⟩ : Insertion Exact).IsAccepted
      ∧ shuttle.IsSound twoPlaces none [parcel "a", parcel "b"]
      ∧ limitViolations shuttlePlan ⟨[bareRoute shuttle none [parcel "a", parcel "b"]], ["c"], []⟩ = .ok [] := by
  have accepted : (⟨parcel "b", shuttleRoute, (1 : Nat), shuttlePlan⟩ : Insertion Exact).IsAccepted := by
    unfold Insertion.IsAccepted
    decide +kernel
  have finite : ∀ job ∈ [parcel "a"], job.IsFinite := by simp [isFinite_parcel]
  have sound : shuttle.IsSound twoPlaces none [parcel "a", parcel "b"] :=
    (isSound_of_accepted build_shuttleRoute isValid_shuttleRoute isFinite_shuttle finite shuttlePlan).2 _
      (.insert .start build_shuttleRoute (isFinite_parcel "b") (by decide) accepted)
  have held : shuttlePlan.Holds shuttle twoPlaces [parcel "a", parcel "b"] :=
    ⟨by decide +kernel, by decide +kernel, by decide +kernel⟩
  have ⟨t, _, _, audited⟩ := sound
  exact ⟨isValid_shuttleRoute, accepted, sound, (audited shuttlePlan held).alone _ rfl⟩

end RouteState

end Leftover
