/-
# What a vehicle is allowed

A vehicle is allowed some skills, a capacity, and limits on how far, how long and to how many jobs it drives. It is
allowed more when it has more skills, no less capacity in any dimension, and limits that are no lower or not set at all.
Then it drives the same routes by the same times, and every check that fails on one of them failed before.

* `Allowance` : what a vehicle is allowed, with the order of more and less
* `RouteState.allow` : the route of a vehicle that is allowed something else
* `Insertion.check_allow` : what is violated by a vehicle that is allowed more
* `Evaluator.build_allow` : the evaluator on a fleet in which one vehicle is allowed more
* `Evaluator.isFeasible_allow` : a job that fits still fits
-/
import Leftover.Proofs.Excess
import Leftover.Proofs.Leniency
import Leftover.Proofs.LoadProfile
import Leftover.Proofs.Rearranged
import Leftover.Proofs.RelistedChecks

namespace Leftover

/-! ## Allowances -/

/-- The skills, the capacity and the limits of a vehicle. -/
structure Allowance (α : Type) where
  skills : List Text
  capacity : List α
  maxDistance : Option α
  maxDuration : Option α
  maxTourSize : Option Nat
  deriving DecidableEq

/-- What a vehicle is allowed. -/
def Vehicle.allowance {α : Type} (v : Vehicle α) : Allowance α :=
  ⟨v.skills, v.capacity, v.maxDistance, v.maxDuration, v.maxTourSize⟩

/-- The vehicle with another allowance. -/
def Vehicle.allow {α : Type} (v : Vehicle α) (a : Allowance α) : Vehicle α :=
  { v with
    skills := a.skills
    capacity := a.capacity
    maxDistance := a.maxDistance
    maxDuration := a.maxDuration
    maxTourSize := a.maxTourSize }

/-- A limit is no higher than another one, which may also not be set at all. -/
def LimitLe {β : Type} [LE β] (limit limit' : Option β) : Prop := ∀ most' ∈ limit', ∃ most ∈ limit, most ≤ most'

/-- No more is allowed than by another allowance. -/
structure Allowance.Le {α : Type} [LE α] (a b : Allowance α) : Prop where
  skills : a.skills ⊆ b.skills
  capacity : List.Forall₂ (· ≤ ·) a.capacity b.capacity
  maxDistance : LimitLe a.maxDistance b.maxDistance
  maxDuration : LimitLe a.maxDuration b.maxDuration
  maxTourSize : LimitLe a.maxTourSize b.maxTourSize

instance {α : Type} [LE α] : LE (Allowance α) := ⟨Allowance.Le⟩

/-! ## Routes -/

section

variable {α : Type} [Quantity α]

/-- The same route of a vehicle with another allowance, on which no time depends. -/
def RouteState.allow (s : RouteState α) (a : Allowance α) : RouteState α where
  vehicle := s.vehicle.allow a
  matrix := s.matrix
  jobs := s.jobs
  origin := s.origin
  base := s.base
  walk_eq := s.walk_eq

/-- The route of a vehicle with another allowance is built in the same way. -/
theorem RouteState.build_allow {v : Vehicle α} {m : Matrix α} {jobs : List (Job α)} {startTime : Option α}
    {s : RouteState α} (built : build v m jobs startTime = .ok s) (a : Allowance α) :
    build (v.allow a) m jobs startTime = .ok (s.allow a) := by
  obtain ⟨rfl, rfl, rfl, begun⟩ := build_eq_ok built
  exact build_eq_of_walk (v := s.vehicle.allow a) begun s.walk_eq

/-- Loads do not depend on how much a vehicle may carry, but on in how many dimensions. -/
theorem RouteState.peakWith_allow (s : RouteState α) {a : Allowance α}
    (same : a.capacity.length = s.vehicle.capacity.length) : (s.allow a).peakWith = s.peakWith := by
  have dims : (s.allow a).dims = s.dims := by
    show List.foldl max a.capacity.length _ = List.foldl max s.vehicle.capacity.length _
    rw [same]
    rfl
  have loads : (s.allow a).loads = s.loads := by
    rw [loads, dims]
    rfl
  funext job position
  rw [peakWith, peaksBefore, peaksAhead, dims, loads]
  rfl

/-! ## Violations -/

namespace Insertion

/-- The check of a reason fails. -/
def IsViolated [Plane α] (i : Insertion α) (r : Reason) : Prop := ∃ severity, i.check r = .ok (.violated severity)

/-- The same job put into the same route of a vehicle with another allowance. -/
def allow (i : Insertion α) (a : Allowance α) : Insertion α := { i with state := i.state.allow a }

/-- Most checks do not look at the allowance of a vehicle. -/
theorem check_allow_eq [Plane α] (i : Insertion α) (a : Allowance α) {r : Reason}
    (other : r ∉ [Reason.skill, .capacity, .maxDistance, .shiftTime, .tourSize]) :
    (i.allow a).check r = i.check r := by
  cases r with
  | unexplained | timeWindow | reachable | breaks | locking | priority | area | dispatch => rfl
  | skill | capacity | maxDistance | shiftTime | tourSize => exact absurd other (by simp)

/-- The minutes that the job adds after the shift, or beyond the longest time on the way. -/
def overtime (i : Insertion α) (t : Schedule α) : α :=
  match i.vehicle.maxDuration with
  | none => i.addedShift t
  | some limit => Quantity.larger (i.addedShift t) (addedOverrun (t.duration - limit) (i.state.base.duration - limit))

theorem checkShiftTime_eq (i : Insertion α) : i.checkShiftTime = i.onSchedule fun t => .ok (.ofExcess (i.overtime t)) := by
  unfold checkShiftTime overtime
  cases i.vehicle.maxDuration <;> rfl

/-- What is judged on a schedule is violated if there is one that gets through and is found at fault. -/
theorem onSchedule_eq_violated {i : Insertion α} {judge : Schedule α → Except Fault (Evidence α)} {severity : Option α} :
    i.onSchedule judge = .ok (.violated severity)
      ↔ ∃ t, i.schedule = .ok t ∧ t.reachable = true ∧ judge t = .ok (.violated severity) := by
  rw [onSchedule, except_bind_eq_ok]
  refine exists_congr fun t => and_congr_right fun _ => ?_
  cases t.reachable <;> simp

end Insertion

theorem Evidence.exists_ofExcess_eq_violated {x : α} :
    (∃ severity, (Except.ok (ofExcess x) : Except Fault (Evidence α)) = .ok (.violated severity)) ↔ 0 < x := by
  rw [ofExcess]
  split
  · rename_i positive
    exact iff_of_true ⟨some x, rfl⟩ positive
  · rename_i none
    exact iff_of_false (fun found => by simp at found) none

end

/-! ### Loads

Where no demand is negative, no peak is, not even one that is undefined or infinite further on. -/

/-- No amount is negative or undefined. -/
def Load.IsNonneg (xs : List Exact) : Prop := ∀ x ∈ xs, 0 ≤ x

namespace Load

theorem exists_of_mem_zipWith {β γ δ : Type} {f : β → γ → δ} {xs : List β} {ys : List γ} {z : δ}
    (member : z ∈ List.zipWith f xs ys) : ∃ x ∈ xs, ∃ y ∈ ys, f x y = z := by
  rw [← List.map_uncurry_zip_eq_zipWith, List.mem_map] at member
  obtain ⟨⟨x, y⟩, paired, rfl⟩ := member
  exact ⟨x, (List.of_mem_zip paired).1, y, (List.of_mem_zip paired).2, rfl⟩

theorem isNonneg_level (dims : Nat) : IsNonneg (level dims 0) := by
  intro x member
  rw [List.eq_of_mem_replicate member]
  exact Exact.le_refl Exact.isDefined_zero

theorem IsNonneg.padTo {xs : List Exact} (nonneg : IsNonneg xs) (dims : Nat) : IsNonneg (padTo dims xs) := by
  intro x member
  rcases List.mem_append.mp member with member | member
  · exact nonneg x member
  · exact isNonneg_level _ x member

theorem IsNonneg.add {xs qs : List Exact} (loaded : IsNonneg xs) (demanded : IsNonneg qs) : IsNonneg (add xs qs) := by
  intro x member
  obtain ⟨d, found⟩ := List.mem_iff_getElem?.mp member
  rw [Load.add, getElem?_combine] at found
  obtain ⟨y, loaded_there, same⟩ := Option.map_eq_some_iff.mp found
  have low : 0 ≤ y := loaded y (List.mem_of_getElem? loaded_there)
  cases demanded_there : qs[d]? with
  | none =>
    rw [demanded_there] at same
    exact same ▸ low
  | some q =>
    rw [demanded_there] at same
    exact same ▸ Exact.add_nonneg low (demanded q (List.mem_of_getElem? demanded_there))

/-- A vehicle does not set out with less than nothing. -/
theorem isNonneg_atStart (dims : Nat) {jobs : List (Job Exact)} (demands : ∀ job ∈ jobs, IsNonneg job.demand) :
    IsNonneg (atStart dims jobs) := by
  rw [atStart]
  -- the load grows from job to job
  have loaded := isNonneg_level dims
  generalize level dims (0 : Exact) = xs at loaded
  induction jobs generalizing xs with
  | nil => exact loaded
  | cons job rest ih =>
    rw [List.forall_mem_cons] at demands
    refine ih demands.2 _ ?_
    show IsNonneg (if job.kind = .delivery then Load.add xs job.demand else xs)
    split
    · exact loaded.add demands.1
    · exact loaded

theorem profileFrom_eq_cons (xs : List Exact) (jobs : List (Job Exact)) :
    ∃ later, profileFrom xs jobs = xs :: later := by
  cases jobs with
  | nil => exact ⟨[], rfl⟩
  | cons job rest => exact ⟨_, rfl⟩

/-- Peaks only rise. -/
theorem isNonneg_of_mem_peaksFrom {peak : List Exact} (high : IsNonneg peak) {loads : List (List Exact)} :
    ∀ xs ∈ peaksFrom peak loads, IsNonneg xs := by
  induction loads generalizing peak with
  | nil => simp [peaksFrom]
  | cons load rest ih =>
    have next : IsNonneg (List.zipWith Quantity.larger peak load) := by
      intro x member
      obtain ⟨y, above, z, -, rfl⟩ := exists_of_mem_zipWith member
      exact Exact.le_larger (high y above)
    exact List.forall_mem_cons.mpr ⟨next, ih next⟩

/-- The first peak is the load at the start, so no peak up to a stop is negative. -/
theorem isNonneg_of_mem_peaks {dims : Nat} {first : List Exact} (nonneg : IsNonneg first) {loads : List (List Exact)} :
    ∀ xs ∈ peaks dims (first :: loads), IsNonneg xs := by
  have next : IsNonneg (List.zipWith Quantity.larger (level dims Quantity.minusInfinity) first) := by
    intro x member
    obtain ⟨y, lowest, z, loaded, rfl⟩ := exists_of_mem_zipWith member
    have low : (0 : Exact) ≤ z := nonneg z loaded
    have below : Exact.minusInfinity < z := by
      rw [Exact.le_def] at low
      rw [Exact.lt_def]
      have low : Exact.le (.finite 0) z = true := low
      cases z <;> simp_all [Exact.le, Exact.lt]
    rw [List.eq_of_mem_replicate lowest]
    show 0 ≤ Quantity.larger Exact.minusInfinity z
    rw [Quantity.larger, if_pos below]
    exact low
  exact List.forall_mem_cons.mpr ⟨next, isNonneg_of_mem_peaksFrom next⟩

/-- The peaks around a stop, with a demand put in between, are not negative if those before it are not. -/
theorem isNonneg_joinPeaks (kind : JobKind) {before ahead demand : List Exact} (high : IsNonneg before)
    (demanded : IsNonneg demand) : IsNonneg (joinPeaks kind before ahead demand) := by
  intro x member
  cases kind with
  | delivery =>
    obtain ⟨⟨b, q⟩, paired, a, -, rfl⟩ := exists_of_mem_zipWith member
    have parts := List.of_mem_zip paired
    exact Exact.le_larger (Exact.add_nonneg (high b parts.1) (demanded q parts.2))
  | pickup =>
    obtain ⟨b, above, aq, -, rfl⟩ := exists_of_mem_zipWith member
    exact Exact.le_larger (high b above)

/-- The more a vehicle may carry, the less a load that is not negative exceeds it. -/
theorem zipWith_sub_atMost {caps caps' : List Exact} (wider : List.Forall₂ (· ≤ ·) caps caps') {peak : List Exact}
    (nonneg : IsNonneg peak) :
    List.Forall₂ Exact.AtMost (List.zipWith (· - ·) peak caps') (List.zipWith (· - ·) peak caps) := by
  induction wider generalizing peak with
  | nil => cases peak <;> exact .nil
  | cons le _ ih =>
    cases peak with
    | nil => exact .nil
    | cons x rest =>
      obtain ⟨low, rest_low⟩ := List.forall_mem_cons.mp nonneg
      exact .cons (Exact.sub_atMost low le) (ih rest_low)

theorem padTo_le_padTo {caps caps' : List Exact} (wider : List.Forall₂ (· ≤ ·) caps caps') (dims : Nat) :
    List.Forall₂ (· ≤ ·) (padTo dims caps) (padTo dims caps') := by
  refine List.rel_append wider ?_
  rw [wider.length_eq, List.forall₂_same]
  exact fun x member => Exact.le_refl (Exact.isDefined_of_le (isNonneg_level _ x member)).2

end Load

/-- No peak with a job put in is negative. -/
theorem RouteState.isNonneg_peakWith {s : RouteState Exact} (demands : ∀ job ∈ s.jobs, Load.IsNonneg job.demand)
    {job : Job Exact} (demanded : Load.IsNonneg job.demand) {position : Int} {peak : List Exact}
    (found : s.peakWith job position = .ok peak) : Load.IsNonneg peak := by
  unfold peakWith at found
  split at found
  · rename_i before ahead stands _
    obtain rfl := Except.ok.inj found
    obtain ⟨k, -, stands⟩ := Option.bind_eq_some_iff.mp stands
    have high : Load.IsNonneg before := by
      obtain ⟨later, loads⟩ : ∃ later, s.loads = Load.atStart s.dims s.jobs :: later :=
        Load.profileFrom_eq_cons _ s.jobs
      rw [peaksBefore, loads] at stands
      exact Load.isNonneg_of_mem_peaks (Load.isNonneg_atStart s.dims demands) before (List.mem_of_getElem? stands)
    exact Load.isNonneg_joinPeaks job.kind (high.padTo _) (demanded.padTo _)
  · exact absurd found (by simp)

namespace Insertion

section

variable [Plane Exact] {i : Insertion Exact} {wider : Allowance Exact} (wide : i.vehicle.allowance ≤ wider)

include wide

/-! ### Skills and limits -/

/-- A skill that the vehicle lacks although it is allowed more was lacking before. -/
theorem skill_allow (violated : (i.allow wider).IsViolated .skill) : i.IsViolated .skill := by
  obtain ⟨severity, found⟩ := violated
  have found : Except.ok (Evidence.ofKept (i.job.skills.all wider.skills.contains)) = Except.ok (.violated severity) := found
  have lacking : ¬i.job.skills.all i.vehicle.skills.contains = true := by
    intro has
    have has' : i.job.skills.all wider.skills.contains = true := by
      rw [List.all_eq_true] at has ⊢
      intro skill needed
      have member : skill ∈ i.vehicle.skills := by simpa using has skill needed
      simpa using wide.skills member
    rw [has'] at found
    exact absurd found (by simp [Evidence.ofKept])
  refine ⟨none, ?_⟩
  rw [check, checkSkill, Bool.eq_false_iff.mpr lacking]
  rfl

/-- A route that is too long although it may be longer was too long before. -/
theorem maxDistance_allow (violated : (i.allow wider).IsViolated .maxDistance) : i.IsViolated .maxDistance := by
  obtain ⟨severity, found⟩ := violated
  have found : (i.allow wider).checkMaxDistance = .ok (.violated severity) := found
  unfold checkMaxDistance at found
  split at found
  · exact absurd found (by simp)
  · rename_i limit' set'
    obtain ⟨limit, set, le⟩ := wide.maxDistance limit' set'
    obtain ⟨t, scheduled, reachable, judged⟩ := onSchedule_eq_violated.mp found
    have exceeded := addedOverrun_pos_of_le le (Evidence.exists_ofExcess_eq_violated.mp ⟨severity, judged⟩)
    obtain ⟨severity', judged'⟩ := Evidence.exists_ofExcess_eq_violated.mpr exceeded
    refine ⟨severity', ?_⟩
    have set : i.vehicle.maxDistance = some limit := set
    rw [check, checkMaxDistance, set]
    exact onSchedule_eq_violated.mpr ⟨t, scheduled, reachable, judged'⟩

/-- A route that ends or takes too long although it may take longer did so before. -/
theorem shiftTime_allow (violated : (i.allow wider).IsViolated .shiftTime) : i.IsViolated .shiftTime := by
  obtain ⟨severity, found⟩ := violated
  have found : (i.allow wider).checkShiftTime = .ok (.violated severity) := found
  rw [checkShiftTime_eq] at found
  obtain ⟨t, scheduled, reachable, judged⟩ := onSchedule_eq_violated.mp found
  have exceeded : 0 < (i.allow wider).overtime t := Evidence.exists_ofExcess_eq_violated.mp ⟨severity, judged⟩
  have before : 0 < i.overtime t := by
    unfold overtime at exceeded ⊢
    -- the end of the shift is the same, so only the time on the way is judged by another limit
    have shift : (i.allow wider).addedShift t = i.addedShift t := rfl
    rw [shift] at exceeded
    cases set' : wider.maxDuration with
    | none =>
      have free : (i.allow wider).vehicle.maxDuration = none := set'
      rw [free] at exceeded
      split
      · exact exceeded
      · exact Exact.larger_pos_left exceeded _
    | some limit' =>
      obtain ⟨limit, set, le⟩ := wide.maxDuration limit' set'
      have set : i.vehicle.maxDuration = some limit := set
      have limited : (i.allow wider).vehicle.maxDuration = some limit' := set'
      rw [limited] at exceeded
      rw [set]
      exact Exact.larger_pos_of_imp (addedOverrun_pos_of_le le) exceeded
  obtain ⟨severity', judged'⟩ := Evidence.exists_ofExcess_eq_violated.mpr before
  refine ⟨severity', ?_⟩
  rw [check, checkShiftTime_eq]
  exact onSchedule_eq_violated.mpr ⟨t, scheduled, reachable, judged'⟩

/-- A vehicle that has too many stops although it may have more had too many before. -/
theorem tourSize_allow (violated : (i.allow wider).IsViolated .tourSize) : i.IsViolated .tourSize := by
  obtain ⟨severity, found⟩ := violated
  have found : (i.allow wider).checkTourSize = .ok (.violated severity) := found
  unfold checkTourSize at found
  split at found
  · exact absurd found (by simp)
  · rename_i limit' set'
    obtain ⟨limit, set, le⟩ := wide.maxTourSize limit' set'
    split at found
    · rename_i more
      have more : limit < i.state.size + 1 := lt_of_le_of_lt le more
      have set : i.vehicle.maxTourSize = some limit := set
      refine ⟨some (Quantity.ofNat (i.state.size + 1 - limit)), ?_⟩
      rw [check, checkTourSize, set]
      exact if_pos more
    · exact absurd found (by simp)

/-! ### Capacity, and all checks together -/

section

variable (demands : ∀ job ∈ i.state.jobs, Load.IsNonneg job.demand) (demanded : Load.IsNonneg i.job.demand)

include demands demanded

/-- A load that is too much although more may be carried was too much before. -/
theorem capacity_allow (violated : (i.allow wider).IsViolated .capacity) : i.IsViolated .capacity := by
  obtain ⟨severity, found⟩ := violated
  obtain ⟨peak, loaded, judged⟩ := except_bind_eq_ok.mp found
  have loaded : i.state.peakWith i.job i.position = .ok peak := by
    rw [← i.state.peakWith_allow wide.capacity.length_eq.symm]
    exact loaded
  have high : Load.IsNonneg peak := RouteState.isNonneg_peakWith demands demanded loaded
  have each := Load.zipWith_sub_atMost (Load.padTo_le_padTo wide.capacity peak.length) high
  have exceeded := Exact.largest_pos each (Evidence.exists_ofExcess_eq_violated.mp ⟨severity, judged⟩)
  obtain ⟨severity', judged'⟩ := Evidence.exists_ofExcess_eq_violated.mpr exceeded
  refine ⟨severity', ?_⟩
  rw [check, checkCapacity, loaded]
  exact judged'

/-- What is violated by a vehicle that is allowed more is violated by the vehicle as it is. -/
theorem isViolated_of_allow {r : Reason} (violated : (i.allow wider).IsViolated r) : i.IsViolated r := by
  by_cases limited : r ∈ [Reason.skill, .capacity, .maxDistance, .shiftTime, .tourSize]
  · simp only [List.mem_cons, List.not_mem_nil, or_false] at limited
    rcases limited with rfl | rfl | rfl | rfl | rfl
    · exact skill_allow wide violated
    · exact capacity_allow wide demands demanded violated
    · exact maxDistance_allow wide violated
    · exact shiftTime_allow wide violated
    · exact tourSize_allow wide violated
  · rwa [IsViolated, i.check_allow_eq wider limited] at violated

end

end

end Insertion

/-! ## Attempts -/

/-- An attempt with a vehicle that is allowed more, in a problem with the same relations, is judged no more strictly. -/
theorem Attempt.noStricter_allow [Plane Exact] (a : Attempt Exact) {q : Problem Exact} (relations : q.relations = a.problem.relations)
    {wider : Allowance Exact} (wide : a.state.vehicle.allowance ≤ wider)
    (demands : ∀ job ∈ a.state.jobs, Load.IsNonneg job.demand) (demanded : Load.IsNonneg a.job.demand) :
    ({ a with problem := q, state := a.state.allow wider } : Attempt Exact).NoStricter a := by
  have check_eq : ∀ (k : Nat) r, (⟨a.job, a.state.allow wider, k, q⟩ : Insertion Exact).check r
      = ((a.insertion k).allow wider).check r :=
    fun k r => ((a.insertion k).allow wider).check_relations (relations ▸ .refl _) r
  refine ⟨fun judges checked k fault failed => ?_, fun k isOpen => ⟨isOpen.1, fun checked => ?_⟩, ?_⟩
  · refine judges checked k fault ?_
    rw [← (a.insertion k).check_allow_eq wider (by simp), ← check_eq]
    exact failed
  · rw [← isOpen.2 checked, ← (a.insertion k).check_allow_eq wider (by simp)]
    exact check_eq k .reachable
  · rintro k r severity' ⟨checked, violated⟩
    have violated : ((a.insertion k).allow wider).check r = .ok (.violated severity') := check_eq k r ▸ violated
    obtain ⟨severity, before⟩ := Insertion.isViolated_of_allow (i := a.insertion k) wide demands demanded ⟨_, violated⟩
    exact ⟨severity, checked, before⟩

/-! ## Evaluators -/

section

variable {α : Type} [Quantity α] {p : Problem α} {s : Solution α} {v : Vehicle α} {front back : List (Vehicle α)}

omit [Quantity α] in
theorem exists_of_forall₂_append {β γ : Type} {R : β → γ → Prop} {xs ys : List β} {zs : List γ}
    (h : List.Forall₂ R (xs ++ ys) zs) :
    ∃ us vs, List.Forall₂ R xs us ∧ List.Forall₂ R ys vs ∧ zs = us ++ vs := by
  induction xs generalizing zs with
  | nil => exact ⟨[], zs, .nil, h, rfl⟩
  | cons x rest ih =>
    obtain ⟨z, later, first, behind, rfl⟩ := List.forall₂_cons_left_iff.mp h
    obtain ⟨us, vs, more, others, rfl⟩ := ih behind
    exact ⟨z :: us, vs, .cons first more, others, rfl⟩

/-- The route of a vehicle with another allowance. -/
theorem routeOf_allow {state : RouteState α} (route : routeOf p s v = .ok state) (a : Allowance α) :
    routeOf p s (v.allow a) = .ok (state.allow a) := by
  rw [routeOf_eq_ok, currentRoute_eq_ok] at route ⊢
  obtain ⟨⟨jobs, matrix, served, found, built⟩, shown⟩ := route
  exact ⟨⟨jobs, matrix, served, found, RouteState.build_allow built a⟩, shown⟩

omit [Quantity α] in
/-- Vehicles are found under the same ids if one of them is allowed something else. -/
theorem Problem.knows_allow (listed : p.fleet = front ++ v :: back) (a : Allowance α) :
    ({ p with fleet := front ++ v.allow a :: back } : Problem α).Knows p where
  job := fun _ j found => ⟨j, found⟩
  vehicle := by
    intro id u found
    have ids : ({ p with fleet := front ++ v.allow a :: back } : Problem α).fleetIds = p.fleetIds := by
      rw [fleetIds, fleetIds, listed, List.map_append, List.map_append]
      rfl
    rw [exists_vehicle_iff, ids]
    exact exists_vehicle_iff.mp ⟨u, found⟩

/-- An evaluator is built on a fleet in which one vehicle is allowed something else, on the same routes. -/
theorem Evaluator.build_allow {catalog : Catalog} {settings : DiagnosisSettings α} {e : Evaluator α}
    (listed : p.fleet = front ++ v :: back) (built : (Evaluator.build p s catalog settings).outcome = .ok e)
    (a : Allowance α) :
    ∃ before state after, routeOf p s v = .ok state ∧ e.states = before ++ state :: after
      ∧ (Evaluator.build { p with fleet := front ++ v.allow a :: back } s catalog settings).outcome
        = .ok { e with
          problem := { p with fleet := front ++ v.allow a :: back }
          states := before ++ state.allow a :: after } := by
  obtain ⟨valid, states, prepared, rfl⟩ := Evaluator.build_eq_ok.mp built
  have routes := prepare_eq_ok.mp prepared
  rw [listed] at routes
  obtain ⟨before, others, routes_before, routes_behind, rfl⟩ := exists_of_forall₂_append routes
  obtain ⟨state, after, route, routes_after, rfl⟩ := List.forall₂_cons_left_iff.mp routes_behind
  refine ⟨before, state, after, route, rfl, Evaluator.build_eq_ok.mpr ⟨?_, _, ?_, rfl⟩⟩
  · exact checkRoutes_of_knows (s := s) (Problem.knows_allow listed a) (.refl _) valid
  · -- the routes of the other vehicles do not depend on this one
    have same : routeOf { p with fleet := front ++ v.allow a :: back } s = routeOf p s := rfl
    rw [prepare_eq_ok, same]
    exact List.rel_append routes_before (.cons (routeOf_allow route a) routes_after)

end

/-- A vehicle of the fleet is allowed more, and no demand is negative. Then an evaluator is still built, on routes that
differ in that vehicle only; every job that the vehicle could take it could still take, in either mode; and whatever is
violated at some position was violated there before. -/
theorem Evaluator.isFeasible_allow [Plane Exact] {p : Problem Exact} {s : Solution Exact} {catalog : Catalog}
    {settings : DiagnosisSettings Exact} {e : Evaluator Exact} {front back : List (Vehicle Exact)} {v : Vehicle Exact}
    {wider : Allowance Exact} (listed : p.fleet = front ++ v :: back) (wide : v.allowance ≤ wider)
    (demands : ∀ job ∈ p.jobs, Load.IsNonneg job.demand)
    (built : (Evaluator.build p s catalog settings).outcome = .ok e) :
    ∃ before state after e', routeOf p s v = .ok state ∧ e.states = before ++ state :: after
      ∧ (Evaluator.build { p with fleet := front ++ v.allow wider :: back } s catalog settings).outcome = .ok e'
      ∧ e'.states = before ++ state.allow wider :: after
      ∧ ∀ job : Job Exact, Load.IsNonneg job.demand →
        (∀ exhaustive, ((e.inMode exhaustive).evaluateVehicle job state).IsFeasible →
          ((e'.inMode exhaustive).evaluateVehicle job (state.allow wider)).IsFeasible)
        ∧ ∀ (position : Int) r, (⟨job, state.allow wider, position, e'.problem⟩ : Insertion Exact).IsViolated r →
          (⟨job, state, position, e.problem⟩ : Insertion Exact).IsViolated r := by
  obtain ⟨before, state, after, route, states, built'⟩ := build_allow listed built wider
  refine ⟨before, state, after, _, route, states, built', rfl, fun job demanded => ?_⟩
  have problem : e.problem = p := by
    obtain ⟨-, -, -, rfl⟩ := Evaluator.build_eq_ok.mp built
    rfl
  have wide : state.vehicle.allowance ≤ wider := by
    rw [vehicle_of_routeOf route]
    exact wide
  have demands : ∀ job ∈ state.jobs, Load.IsNonneg job.demand := by
    intro served member
    exact demands served (mem_jobs_of_routeOf route member)
  refine ⟨fun exhaustive feasible => ?_, fun position r violated => ?_⟩
  · exact (Attempt.noStricter_allow ((e.inMode exhaustive).attempt job state) (congrArg (·.relations) problem.symm) wide
      demands demanded).survey_isFeasible feasible
  · have same : (⟨job, state.allow wider, position, { p with fleet := front ++ v.allow wider :: back }⟩ : Insertion Exact).check r
        = ((⟨job, state, position, e.problem⟩ : Insertion Exact).allow wider).check r :=
      ((⟨job, state, position, e.problem⟩ : Insertion Exact).allow wider).check_relations (problem ▸ .refl _) r
    exact Insertion.isViolated_of_allow (i := ⟨job, state, position, e.problem⟩) wide demands demanded
      (violated.imp fun severity found => same ▸ found)

/-! ### A shuttle that is allowed more -/

/-- A shuttle with a cold box and more room, which may drive as far as it likes. -/
def roomyShuttle : Allowance Exact where
  skills := ["cold"]
  capacity := [.finite 5]
  maxDistance := none
  maxDuration := some (.finite 500)
  maxTourSize := some 4

theorem shuttle_le_roomyShuttle : RouteState.shuttle.allowance ≤ roomyShuttle where
  skills := by simp [Vehicle.allowance, RouteState.shuttle]
  capacity := .cons (by decide) .nil
  maxDistance := by simp [LimitLe, roomyShuttle]
  maxDuration := by
    rintro most' set'
    obtain rfl := Option.some.inj set'
    exact ⟨.finite 480, rfl, by decide⟩
  maxTourSize := by
    rintro most' set'
    obtain rfl := Option.some.inj set'
    exact ⟨4, rfl, by decide⟩

theorem isFeasible_allow_shuttle :
    shuttlePlan.fleet = [] ++ RouteState.shuttle :: [] ∧ RouteState.shuttle.allowance ≤ roomyShuttle
      ∧ (∀ job ∈ shuttlePlan.jobs, Load.IsNonneg job.demand)
      ∧ (Evaluator.build shuttlePlan shuttleSolution (.without []) {}).outcome = .ok shuttleEvaluator
      ∧ ∃ e', (Evaluator.build { shuttlePlan with fleet := [RouteState.shuttle.allow roomyShuttle] } shuttleSolution
          (.without []) {}).outcome = .ok e'
        ∧ e'.states = [RouteState.shuttleRoute.allow roomyShuttle]
        ∧ ((e'.inMode true).evaluateVehicle (RouteState.parcel "b") (RouteState.shuttleRoute.allow roomyShuttle)).IsFeasible := by
  have one_parcel : ∀ name, Load.IsNonneg (RouteState.parcel name).demand := by
    intro name q member
    obtain rfl := List.mem_singleton.mp member
    decide
  have demands : ∀ job ∈ shuttlePlan.jobs, Load.IsNonneg job.demand := by
    intro job member
    simp only [shuttlePlan, List.mem_cons, List.not_mem_nil, or_false] at member
    rcases member with rfl | rfl | rfl <;> exact one_parcel _
  have listed : shuttlePlan.fleet = [] ++ RouteState.shuttle :: [] := rfl
  obtain ⟨before, state, after, e', route, states, built', states', fits⟩ :=
    Evaluator.isFeasible_allow listed shuttle_le_roomyShuttle demands build_shuttleEvaluator
  obtain rfl : state = RouteState.shuttleRoute := Except.ok.inj (route.symm.trans routeOf_shuttle)
  obtain ⟨rfl, rfl⟩ : before = [] ∧ after = [] := by
    simpa [shuttleEvaluator, List.singleton_eq_append_iff] using states
  refine ⟨listed, shuttle_le_roomyShuttle, demands, build_shuttleEvaluator, e', built', states', ?_⟩
  refine (fits _ (one_parcel "b")).1 true ⟨⟨"shuttle", [], false, true⟩, by decide +kernel, rfl⟩

end Leftover
