/-
# Valid routes

A route is valid if it keeps every limit of its vehicle. A job that all checks let in leaves a valid route valid: each
check looks at what the job adds, and together they see everything that a limit is about.

* `RouteState.IsValid` : the limits that a route keeps
* `Insertion.IsAccepted` : all checks let the job in
* `RouteState.IsValid.insert` : the longer route is valid
-/
import Leftover.Check.Catalog
import Leftover.Proofs.LoadPeaks
import Leftover.Proofs.Lookup
import Leftover.Proofs.Paths

namespace Leftover

/-! ## Valid routes -/

/-- Lower order values come first, where jobs have one. -/
def InOrder {α : Type} (jobs : List (Job α)) : Prop :=
  jobs.Pairwise fun earlier later => ∀ x ∈ earlier.order, ∀ y ∈ later.order, x ≤ y

/-- A route keeps every limit of its vehicle: it gets through and is nowhere late, it ends inside the shift and is
neither too long nor too far, it never carries more than fits, it has not too many stops, every break can be taken, and
no job comes after one with a larger order value. -/
structure RouteState.IsValid {α : Type} [Quantity α] (s : RouteState α) : Prop where
  reachable : s.base.reachable = true
  onTime : ∀ stop ∈ s.base.stops, stop.late ≤ 0
  endTime_le : s.base.endTime ≤ s.vehicle.shift.closes
  duration_le : ∀ limit ∈ s.vehicle.maxDuration, s.base.duration ≤ limit
  distance_le : ∀ limit ∈ s.vehicle.maxDistance, s.base.distance ≤ limit
  loads_fit : ∀ load ∈ s.loads, List.Forall₂ (· ≤ ·) load (s.capacity s.dims)
  size_le : ∀ limit ∈ s.vehicle.maxTourSize, s.size ≤ limit
  breaks_fit : ∀ b ∈ s.vehicle.breaks, breakOverrun s.base s.vehicle b = 0
  inOrder : InOrder s.jobs

/-- All checks let the job in. -/
def Insertion.IsAccepted {α : Type} [Quantity α] [Plane α] (i : Insertion α) : Prop :=
  ∀ r ∈ priorityOrder, i.check r = .ok .satisfied

/-- The numbers of a vehicle that its limits are told by are finite. -/
structure Vehicle.IsFinite (v : Vehicle Exact) : Prop where
  capacity : ∀ c ∈ v.capacity, Quantity.isFinite c = true
  closes : Quantity.isFinite v.shift.closes = true
  maxDuration : ∀ limit ∈ v.maxDuration, Quantity.isFinite limit = true
  maxDistance : ∀ limit ∈ v.maxDistance, Quantity.isFinite limit = true

/-! ## Breaks -/

theorem le_pushDelay {bound worst : Exact} (low : bound ≤ worst) (delay : Exact) (stops : List (ScheduledStop Exact)) :
    bound ≤ (pushDelay worst delay stops).1 := by
  induction stops generalizing worst delay with
  | nil => exact low
  | cons stop rest ih =>
    rw [pushDelay]
    split
    · exact low
    · exact ih (Exact.le_larger low) _

theorem overrunBefore_nonneg (s : Schedule Exact) (v : Vehicle Exact) (b : Break Exact) (leaves : Exact)
    (rest : List (ScheduledStop Exact)) : 0 ≤ overrunBefore s v b leaves rest := by
  rw [overrunBefore]
  split
  · -- the break begins after its window
    rename_i late
    exact Exact.sub_nonneg_of_lt late
  · have zero : (0 : Exact) ≤ 0 := Exact.le_refl Exact.isDefined_zero
    have pushed := le_pushDelay zero (Quantity.larger leaves b.window.opens + b.duration - leaves) rest
    apply Exact.le_larger
    split
    · exact Exact.le_larger pushed
    · exact pushed

theorem overrunAtEnd_nonneg (s : Schedule Exact) (v : Vehicle Exact) (b : Break Exact) : 0 ≤ overrunAtEnd s v b :=
  Exact.le_larger (Exact.le_larger (Exact.le_refl Exact.isDefined_zero))

/-- No break has an overrun below zero. -/
theorem breakOverrun_nonneg (s : Schedule Exact) (v : Vehicle Exact) (b : Break Exact) : 0 ≤ breakOverrun s v b := by
  rw [breakOverrun]
  split
  · exact Exact.le_refl Exact.isDefined_zero
  · refine Exact.le_smaller (Exact.le_foldl_smaller (List.forall_mem_cons.mpr ⟨by decide, ?_⟩))
      (overrunAtEnd_nonneg s v b)
    intro x member
    obtain ⟨⟨leaves, rest⟩, -, rfl⟩ := List.mem_map.mp member
    exact overrunBefore_nonneg s v b leaves rest

/-! ## What the checks let in -/

/-- Where a limit was kept before, an insertion is blamed for all that exceeds it. -/
theorem addedOverrun_of_nonpos {before : Exact} (kept : before ≤ 0) (after : Exact) :
    addedOverrun after before = Quantity.larger after 0 := by
  have nothing : Quantity.larger (if Quantity.isFinite before then before else 0) 0 = 0 := by
    split
    · exact Exact.larger_zero kept
    · exact Exact.larger_zero (Exact.le_refl Exact.isDefined_zero)
  show Quantity.larger after 0 - Quantity.larger (if Quantity.isFinite before then before else 0) 0 = _
  rw [nothing, Exact.sub_zero]

/-- Where a limit was kept before, no excess means that it is kept after. -/
theorem addedOverrun_le_zero_iff {before after limit : Exact} (finite : Quantity.isFinite limit = true)
    (kept : before ≤ limit) (defined : after.IsDefined) :
    (addedOverrun (after - limit) (before - limit)).IsDefined
      ∧ (addedOverrun (after - limit) (before - limit) ≤ 0 ↔ after ≤ limit) := by
  obtain ⟨a, rfl⟩ := Exact.isFinite_iff.mp finite
  have excess_defined := Exact.isDefined_sub_finite defined a
  rw [addedOverrun_of_nonpos (Exact.sub_finite_nonpos.mpr kept)]
  refine ⟨Exact.isDefined_larger excess_defined Exact.isDefined_zero, ?_⟩
  rw [Exact.larger_le_iff excess_defined Exact.isDefined_zero, Exact.sub_finite_nonpos]
  exact and_iff_left (Exact.le_refl Exact.isDefined_zero)

/-- On a route that is nowhere late no job is late. -/
theorem RouteState.lateOf_le_zero {s : RouteState Exact} (timed : s.base.IsTimed)
    (onTime : ∀ stop ∈ s.base.stops, stop.late ≤ 0) (id : Text) :
    Quantity.isFinite (s.lateOf id) = true ∧ s.lateOf id ≤ 0 := by
  rw [lateOf]
  cases found : lastOf? s.lateness id with
  | none => exact ⟨rfl, Exact.le_refl Exact.isDefined_zero⟩
  | some late =>
    obtain ⟨stop, member, rfl⟩ : ∃ stop ∈ s.base.stops, stop.late = late := by
      obtain ⟨stop, listed, same⟩ := List.mem_map.mp (mem_of_lastOf? found)
      exact ⟨stop, listed, (Prod.mk.inj same).2⟩
    exact ⟨(timed.stops stop member).late, onTime stop member⟩

namespace Insertion

section

variable {s : RouteState Exact} {job : Job Exact} {k : Nat} {p : Problem Exact} {t : Schedule Exact}
  (scheduled : (⟨job, s, k, p⟩ : Insertion Exact).schedule = .ok t) (reachable : t.reachable = true)

include scheduled reachable

/-- Where the longer route gets through, a check looks at its schedule. -/
theorem onSchedule_eq (judge : Schedule Exact → Except Fault (Evidence Exact)) :
    (⟨job, s, k, p⟩ : Insertion Exact).onSchedule judge = judge t := by
  rw [onSchedule, scheduled, except_ok_bind, if_pos reachable]

variable (valid : s.IsValid) (finite : s.vehicle.IsFinite)

include valid finite

/-- The route ends inside the shift if it did and the shift is kept, and takes no longer than allowed. -/
theorem times_of_checkShiftTime (timed : t.IsTimed)
    (kept : (⟨job, s, k, p⟩ : Insertion Exact).checkShiftTime = .ok .satisfied) :
    t.endTime ≤ s.vehicle.shift.closes ∧ ∀ limit ∈ s.vehicle.maxDuration, t.duration ≤ limit := by
  have end_defined := Exact.isDefined_of_isFinite timed.endTime
  obtain ⟨shift_defined, shift_iff⟩ := addedOverrun_le_zero_iff finite.closes valid.endTime_le end_defined
  rw [checkShiftTime, onSchedule_eq scheduled reachable] at kept
  cases limited : s.vehicle.maxDuration with
  | none =>
    have limited' : (⟨job, s, k, p⟩ : Insertion Exact).vehicle.maxDuration = none := limited
    simp only [limited', Except.ok.injEq] at kept
    exact ⟨shift_iff.mp ((Evidence.ofExcess_eq_satisfied shift_defined).mp kept), by simp⟩
  | some limit =>
    have limited' : (⟨job, s, k, p⟩ : Insertion Exact).vehicle.maxDuration = some limit := limited
    simp only [limited', Except.ok.injEq] at kept
    have duration_defined : t.duration.IsDefined :=
      Exact.isDefined_of_isFinite (Exact.isFinite_sub timed.endTime timed.startTime)
    obtain ⟨added_defined, added_iff⟩ := addedOverrun_le_zero_iff (finite.maxDuration limit limited)
      (valid.duration_le limit limited) duration_defined
    have kept := (Evidence.ofExcess_eq_satisfied (Exact.isDefined_larger shift_defined added_defined)).mp kept
    have kept := (Exact.larger_le_iff shift_defined added_defined).mp kept
    refine ⟨shift_iff.mp kept.1, fun limit' same => ?_⟩
    obtain rfl := Option.some.inj same
    exact added_iff.mp kept.2

/-- The route is not longer than allowed if it was not and the distance is kept. -/
theorem distance_of_checkMaxDistance (timed : t.IsTimed)
    (kept : (⟨job, s, k, p⟩ : Insertion Exact).checkMaxDistance = .ok .satisfied) :
    ∀ limit ∈ s.vehicle.maxDistance, t.distance ≤ limit := by
  intro limit limited
  obtain ⟨added_defined, added_iff⟩ := addedOverrun_le_zero_iff (finite.maxDistance limit limited)
    (valid.distance_le limit limited) (Exact.isDefined_of_le timed.distance).2
  have limited' : (⟨job, s, k, p⟩ : Insertion Exact).vehicle.maxDistance = some limit := limited
  simp only [checkMaxDistance, limited', onSchedule_eq scheduled reachable, Except.ok.injEq] at kept
  exact added_iff.mp ((Evidence.ofExcess_eq_satisfied added_defined).mp kept)

/-- No stop is late if none was and the time windows are kept. -/
theorem onTime_of_checkTimeWindow (timed_base : s.base.IsTimed) (timed : t.IsTimed)
    (same : t.stops.take k = s.base.stops.take k)
    (kept : (⟨job, s, k, p⟩ : Insertion Exact).checkTimeWindow = .ok .satisfied) :
    ∀ stop ∈ t.stops, stop.late ≤ 0 := by
  rw [checkTimeWindow, onSchedule_eq scheduled reachable] at kept
  simp only [Int.toNat_natCast] at kept
  split at kept
  · exact absurd kept (by simp)
  · rename_i stop later stops_eq
    have parts : t.stops = s.base.stops.take k ++ stop :: later := by
      rw [← same, ← stops_eq, List.take_append_drop]
    have stop_timed := timed.stops stop (by simp [parts])
    have own_defined : (ownLateness ⟨job, s, k, p⟩ stop).IsDefined := by
      rw [ownLateness]
      split
      · exact Exact.isDefined_of_isFinite stop_timed.late
      · exact Exact.isDefined_larger (Exact.isDefined_of_isFinite stop_timed.late)
          (Exact.isDefined_of_isFinite (Exact.isFinite_sub stop_timed.start finite.closes))
    have added_finite : ∀ x ∈ later.map (addedLateness ⟨job, s, k, p⟩), Quantity.isFinite x = true := by
      intro x member
      obtain ⟨other, listed, rfl⟩ := List.mem_map.mp member
      have other_timed := timed.stops other (by simp [parts, listed])
      exact Exact.isFinite_sub other_timed.late (RouteState.lateOf_le_zero timed_base valid.onTime _).1
    have defined : ∀ x ∈ ownLateness ⟨job, s, k, p⟩ stop :: later.map (addedLateness ⟨job, s, k, p⟩), x.IsDefined :=
      List.forall_mem_cons.mpr ⟨own_defined, fun x member => Exact.isDefined_of_isFinite (added_finite x member)⟩
    rw [Except.ok.injEq, Evidence.ofExcess_eq_satisfied (Exact.isDefined_foldl_larger defined),
      Exact.foldl_larger_le_iff defined, List.forall_mem_cons] at kept
    obtain ⟨own_kept, added_kept⟩ := kept
    -- the stops before the job are as they were, the job itself is on time, and no later stop is later than it was
    rw [parts, List.forall_mem_append, List.forall_mem_cons]
    refine ⟨fun other member => valid.onTime other (List.mem_of_mem_take member), ?_, fun other member => ?_⟩
    · rw [ownLateness] at own_kept
      split at own_kept
      · exact own_kept
      · exact Exact.le_trans (Exact.le_larger (Exact.le_refl (Exact.isDefined_of_isFinite stop_timed.late))) own_kept
    · have added := added_kept _ (List.mem_map_of_mem member)
      obtain ⟨late_finite, late_kept⟩ := RouteState.lateOf_le_zero timed_base valid.onTime other.job.id
      obtain ⟨late, late_eq⟩ := Exact.isFinite_iff.mp late_finite
      have added : other.late - s.lateOf other.job.id ≤ 0 := added
      rw [late_eq, Exact.sub_finite_nonpos] at added
      exact Exact.le_trans added (late_eq ▸ late_kept)

omit finite in
/-- Every break can still be taken if all could be and breaks are kept. -/
theorem breaks_of_checkBreaks (kept : (⟨job, s, k, p⟩ : Insertion Exact).checkBreaks = .ok .satisfied) :
    ∀ b ∈ s.vehicle.breaks, breakOverrun t s.vehicle b = 0 := by
  intro b listed
  have some_break : (⟨job, s, k, p⟩ : Insertion Exact).vehicle.breaks.isEmpty = false := by
    have listed : b ∈ (⟨job, s, k, p⟩ : Insertion Exact).vehicle.breaks := listed
    simpa using List.ne_nil_of_mem listed
  rw [checkBreaks, if_neg (by simp [some_break]), onSchedule_eq scheduled reachable] at kept
  -- all breaks could be taken before, so none is left out of account
  have all_judged : ((s.vehicle.breaks.zip s.breakOverruns).filterMap fun (b, before) =>
      (⟨job, s, k, p⟩ : Insertion Exact).addedBreakOverrun t b before)
        = s.vehicle.breaks.map (breakOverrun t s.vehicle) := by
    have paired : s.vehicle.breaks.zip s.breakOverruns
        = s.vehicle.breaks.map fun b => (b, breakOverrun s.base s.vehicle b) := List.map_prod_left_eq_zip.symm
    rw [paired, List.filterMap_map, ← List.filterMap_eq_map]
    apply List.filterMap_congr
    intro b member
    have before := valid.breaks_fit b member
    simp only [Function.comp, addedBreakOverrun, before]
    rw [if_neg (Exact.lt_irrefl 0)]
    rfl
  have defined : ∀ x ∈ (0 : Exact) :: s.vehicle.breaks.map (breakOverrun t s.vehicle), x.IsDefined := by
    refine List.forall_mem_cons.mpr ⟨Exact.isDefined_zero, fun x member => ?_⟩
    obtain ⟨b, -, rfl⟩ := List.mem_map.mp member
    exact (Exact.isDefined_of_le (breakOverrun_nonneg t s.vehicle b)).2
  have kept : Evidence.ofExcess ((s.vehicle.breaks.map (breakOverrun t s.vehicle)).foldl Quantity.larger 0)
      = .satisfied := by
    rw [← all_judged]
    exact Except.ok.inj kept
  rw [Evidence.ofExcess_eq_satisfied (Exact.isDefined_foldl_larger defined), Exact.foldl_larger_le_iff defined,
    List.forall_mem_cons] at kept
  exact Exact.le_antisymm (kept.2 _ (List.mem_map_of_mem listed)) (breakOverrun_nonneg t s.vehicle b)

end

section

variable {α : Type} [Quantity α]

omit [Quantity α] in
theorem countOrders_eq_zero {jobs : List (Job α)} {told : Int → Bool} :
    countOrders jobs told = 0 ↔ ∀ job ∈ jobs, ∀ order ∈ job.order, told order = false := by
  rw [countOrders, List.countP_eq_zero]
  refine forall₂_congr fun job _ => ?_
  cases job.order with
  | none => simp
  | some order => simp

/-- Jobs stay in order if they were and the order is kept. -/
theorem inOrder_of_checkPriority {s : RouteState α} {job : Job α} {k : Nat} {p : Problem α} (inOrder : InOrder s.jobs)
    (kept : (⟨job, s, k, p⟩ : Insertion α).checkPriority = .ok .satisfied) :
    InOrder (s.jobs.take k ++ job :: s.jobs.drop k) := by
  -- no job before the position has a larger value, and none after it a smaller one
  have around : (∀ earlier ∈ s.jobs.take k, ∀ x ∈ earlier.order, ∀ y ∈ job.order, x ≤ y)
      ∧ ∀ later ∈ s.jobs.drop k, ∀ y ∈ job.order, ∀ x ∈ later.order, y ≤ x := by
    cases told : job.order with
    | none => simp
    | some order =>
      have none_wrong : inversions ⟨job, s, k, p⟩ order = 0 := by
        simp only [checkPriority, told, Except.ok.injEq] at kept
        split at kept
        · assumption
        · exact absurd kept (by simp)
      rw [inversions, upTo_natCast, onward_natCast, Nat.add_eq_zero_iff, countOrders_eq_zero, countOrders_eq_zero]
        at none_wrong
      obtain ⟨none_before, none_after⟩ := none_wrong
      constructor
      · intro earlier member x hx y hy
        obtain rfl := Option.some.inj hy
        simpa using none_before earlier member x hx
      · intro later member y hy x hx
        obtain rfl := Option.some.inj hy
        simpa using none_after later member x hx
  rw [InOrder, ← List.take_append_drop k s.jobs, List.pairwise_append] at inOrder
  rw [InOrder, List.pairwise_append, List.pairwise_cons]
  refine ⟨inOrder.1, ⟨around.2, inOrder.2.1⟩, fun earlier member later member' => ?_⟩
  rcases List.mem_cons.mp member' with rfl | member'
  · exact around.1 earlier member
  · exact inOrder.2.2 earlier member later member'

/-- The route has no more stops than allowed if it is allowed one more. -/
theorem size_of_checkTourSize {i : Insertion α} (kept : i.checkTourSize = .ok .satisfied) :
    ∀ limit ∈ i.vehicle.maxTourSize, i.state.size + 1 ≤ limit := by
  intro limit limited
  have limited : i.vehicle.maxTourSize = some limit := limited
  simp only [checkTourSize, limited] at kept
  split at kept
  · exact absurd kept (by simp)
  · omega

end

end Insertion

/-! ## One job -/

/-- The route with a job that all checks let in is a route again, and valid if the route was. -/
theorem RouteState.IsValid.insert [Plane Exact] {v : Vehicle Exact} {m : Matrix Exact} {jobs : List (Job Exact)}
    {startTime : Option Exact} {s : RouteState Exact} (built : build v m jobs startTime = .ok s) (valid : s.IsValid)
    (finite_vehicle : v.IsFinite) (finite : ∀ job ∈ jobs, job.IsFinite) {job : Job Exact} (finite_job : job.IsFinite)
    {k : Nat} (inside : k ≤ jobs.length) {p : Problem Exact}
    (accepted : (⟨job, s, k, p⟩ : Insertion Exact).IsAccepted) :
    ∃ t, build v m (insertAt jobs k job) startTime = .ok t ∧ t.IsValid := by
  obtain ⟨rfl, rfl, rfl, begun⟩ := build_eq_ok built
  have check : ∀ r ∈ priorityOrder, (⟨job, s, k, p⟩ : Insertion Exact).check r = .ok .satisfied := accepted
  have begins := origin_distance_nonneg begun
  have finite_all : ∀ job' ∈ s.jobs.take k ++ job :: s.jobs.drop k, job'.IsFinite := by
    rw [List.forall_mem_append, List.forall_mem_cons]
    exact ⟨fun job' member => finite job' (List.mem_of_mem_take member), finite_job,
      fun job' member => finite job' (List.mem_of_mem_drop member)⟩
  -- paths lead to the job and on, so the other checks look at the schedule of the longer route
  obtain ⟨t, scheduled, reachable, walked, same⟩ := Insertion.schedule_of_isReachable valid.reachable begins finite
    inside (check .reachable (by decide))
  have timed_base := walk_isTimed s.walk_eq valid.reachable begins finite
  have timed := walk_isTimed walked reachable begins finite_all
  obtain ⟨in_shift, not_too_long⟩ := Insertion.times_of_checkShiftTime scheduled reachable valid finite_vehicle timed
    (check .shiftTime (by decide))
  obtain ⟨u, rebuilt, vehicle_eq, jobs_eq, rfl⟩ : ∃ u : RouteState Exact,
      build s.vehicle s.matrix (s.jobs.take k ++ job :: s.jobs.drop k) startTime = .ok u
        ∧ u.vehicle = s.vehicle ∧ u.jobs = s.jobs.take k ++ job :: s.jobs.drop k ∧ u.base = t :=
    ⟨_, build_eq_of_walk begun walked, rfl, rfl, rfl⟩
  have length_eq : u.jobs.length = s.jobs.length + 1 := by
    rw [jobs_eq, List.length_append, List.length_cons, List.length_take, List.length_drop]
    omega
  rw [insertAt, upTo_natCast, onward_natCast]
  refine ⟨u, rebuilt, ?_⟩
  constructor
  case reachable => exact reachable
  case onTime =>
    exact Insertion.onTime_of_checkTimeWindow scheduled reachable valid finite_vehicle timed_base timed same
      (check .timeWindow (by decide))
  case endTime_le =>
    rw [vehicle_eq]
    exact in_shift
  case duration_le =>
    rw [vehicle_eq]
    exact not_too_long
  case distance_le =>
    rw [vehicle_eq]
    exact Insertion.distance_of_checkMaxDistance scheduled reachable valid finite_vehicle timed
      (check .maxDistance (by decide))
  case loads_fit =>
    have fits := (Insertion.checkCapacity_eq_satisfied (fun job member => (finite job member).demand)
      finite_vehicle.capacity finite_job.demand inside p).mp (check .capacity (by decide))
    rw [loads_fit_iff (by rw [jobs_eq]; exact fun job member => (finite_all job member).demand)
      (by rw [vehicle_eq]; exact finite_vehicle.capacity), dims_insert vehicle_eq jobs_eq, length_eq, jobs_eq,
      vehicle_eq]
    exact fits
  case size_le =>
    rw [vehicle_eq, size, length_eq]
    exact Insertion.size_of_checkTourSize (check .tourSize (by decide))
  case breaks_fit =>
    rw [vehicle_eq]
    exact Insertion.breaks_of_checkBreaks scheduled reachable valid (check .breaks (by decide))
  case inOrder =>
    rw [jobs_eq]
    exact Insertion.inOrder_of_checkPriority valid.inOrder (check .priority (by decide))

end Leftover
