/-
# Peaks against the loads of the longer route

The highest load with a job put in is told from two peaks of the route as it is. Working out all loads of the longer
route anew gives the same, in every dimension, and the capacity check finds the greatest excess of any of these loads.

* `Load.IsPeakOf` : the greatest amounts on board at some points of a route
* `Load.IsPeakOf.measures_excess` : the greatest excess over a capacity
* `RouteState.peakWith_eq_rebuilt` : loads, peaks and the capacity check
* `RouteState.loads_undefined_endlessRoute` : loads that are no numbers, after an infinite demand
-/
import Leftover.Proofs.AcceptedRuns
import Leftover.Proofs.Extremes
import Leftover.Proofs.LoadPeaks
import Mathlib.Algebra.Order.BigOperators.Group.List
import Mathlib.Data.List.GetD

namespace Leftover

open Quantity

/-! ## Peaks -/

namespace Load

theorem getD_vector {dims d : Nat} (inside : d < dims) (f : Nat → Rat) : (vector dims f).getD d 0 = .finite (f d) := by
  rw [List.getD_eq_getElem?_getD, getElem?_vector, if_pos inside, Option.getD_some]

/-- In each of so many dimensions the greatest of some loads, zero where a load has none. -/
def IsPeakOf (peak : List Exact) (dims : Nat) (loads : Set (List Exact)) : Prop :=
  peak.length = dims ∧ ∀ d < dims, IsGreatest {x | ∃ load ∈ loads, x = load.getD d 0} (peak.getD d 0)

theorem isPeakOf_vector {dims : Nat} {b : Nat → Rat} {P : Nat → Prop} {f : Nat → Nat → Rat} {loads : Set (List Exact)}
    (mem_loads : ∀ load, load ∈ loads ↔ ∃ i, P i ∧ load = vector dims (f i))
    (greatest : ∀ d, IsGreatest {x | ∃ i, P i ∧ x = f i d} (b d)) : IsPeakOf (vector dims b) dims loads := by
  refine ⟨length_vector dims b, fun d inside => ?_⟩
  obtain ⟨⟨i, at_point, same⟩, above⟩ := greatest d
  rw [getD_vector inside]
  constructor
  · exact ⟨vector dims (f i), (mem_loads _).mpr ⟨i, at_point, rfl⟩, by rw [getD_vector inside, same]⟩
  · rintro x ⟨load, listed, rfl⟩
    obtain ⟨j, at_point, rfl⟩ := (mem_loads load).mp listed
    rw [getD_vector inside, Exact.finite_le_finite]
    exact above ⟨j, at_point, rfl⟩

theorem mem_zipWith_sub {dims : Nat} {peak limit : List Exact} (length : peak.length = dims)
    (length' : limit.length = dims) {x : Exact} :
    x ∈ List.zipWith (· - ·) peak limit ↔ ∃ d < dims, x = peak.getD d 0 - limit.getD d 0 := by
  rw [List.mem_iff_getElem]
  simp only [List.length_zipWith, length, length', min_self, List.getElem_zipWith]
  constructor
  · rintro ⟨d, inside, rfl⟩
    refine ⟨d, inside, ?_⟩
    rw [List.getD_eq_getElem _ _ (by omega), List.getD_eq_getElem _ _ (by omega)]
  · rintro ⟨d, inside, rfl⟩
    refine ⟨d, inside, ?_⟩
    rw [List.getD_eq_getElem _ _ (by omega), List.getD_eq_getElem _ _ (by omega)]

/-- What a peak exceeds a capacity by is the greatest excess of the loads. -/
theorem IsPeakOf.measures_excess {dims : Nat} {b : Nat → Rat} {loads : Set (List Exact)}
    (peak : IsPeakOf (vector dims b) dims loads) {capacity : List Exact} (length : capacity.length = dims)
    (defined : ∀ d < dims, (capacity.getD d 0).IsDefined) :
    (Evidence.ofExcess (largest 0 (List.zipWith (· - ·) (vector dims b) capacity))).Measures
      {x | ∃ load ∈ loads, ∃ d < dims, capacity.getD d 0 < load.getD d 0 ∧ x = load.getD d 0 - capacity.getD d 0} := by
  have mem_excess : ∀ x, x ∈ List.zipWith (· - ·) (vector dims b) capacity ↔ ∃ d < dims,
      x = (vector dims b).getD d 0 - capacity.getD d 0 := fun x => mem_zipWith_sub peak.1 length
  have excess_defined : ∀ x ∈ List.zipWith (· - ·) (vector dims b) capacity, x.IsDefined := by
    intro x listed
    obtain ⟨d, inside, rfl⟩ := (mem_excess x).mp listed
    rw [getD_vector inside]
    exact Exact.isDefined_finite_sub (defined d inside) _
  refine (Evidence.measures_ofExcess_largest excess_defined).of_dominated ?_ ?_
  · -- the peak is attained by one of the loads
    rintro x ⟨listed, positive⟩
    obtain ⟨d, inside, rfl⟩ := (mem_excess x).mp listed
    obtain ⟨load, on_board, same⟩ := (peak.2 d inside).1
    exact ⟨load, on_board, d, inside, by rw [← same]; exact Exact.sub_pos_iff.mp positive, by rw [same]⟩
  · rintro x ⟨load, on_board, d, inside, above, rfl⟩
    have below := (peak.2 d inside).2 ⟨load, on_board, rfl⟩
    exact ⟨_, ⟨(mem_excess _).mpr ⟨d, inside, rfl⟩, Exact.sub_pos_of_lt (Exact.lt_of_lt_of_le above below)⟩,
      Exact.sub_le_sub_of_lt above below⟩

end Load

/-! ## Amounts on board -/

theorem Load.amountIn_nonneg {xs : List Exact} (nonneg : ∀ x ∈ xs, 0 ≤ x) (d : Nat) : 0 ≤ amountIn xs d := by
  rw [amountIn]
  cases found : xs[d]? with
  | none => exact le_refl _
  | some x =>
    have above := nonneg x (List.mem_of_getElem? found)
    rw [Exact.le_def] at above
    cases x with
    | finite a => exact (Exact.finite_le_finite 0 a).mp above
    | _ => exact le_refl _

/-- Where no demand is negative, no load is. -/
theorem loadAt_nonneg {jobs : List (Job Exact)} (nonneg : ∀ job ∈ jobs, ∀ q ∈ job.demand, 0 ≤ q) (k d : Nat) :
    0 ≤ loadAt jobs k d := by
  have amount : ∀ job ∈ jobs, 0 ≤ job.dropped d ∧ 0 ≤ job.collected d := by
    intro job member
    have demanded := Load.amountIn_nonneg (nonneg job member) d
    rw [Job.dropped, Job.collected]
    constructor
    · split
      · exact demanded
      · exact le_refl 0
    · split
      · exact demanded
      · exact le_refl 0
  refine add_nonneg (List.sum_nonneg ?_) (List.sum_nonneg ?_)
  · intro x listed
    obtain ⟨job, member, rfl⟩ := List.mem_map.mp listed
    exact (amount job (List.mem_of_mem_drop member)).1
  · intro x listed
    obtain ⟨job, member, rfl⟩ := List.mem_map.mp listed
    exact (amount job (List.mem_of_mem_take member)).2

namespace RouteState

theorem loads_getElem? {s : RouteState Exact} (finite : ∀ job ∈ s.jobs, ∀ q ∈ job.demand, Quantity.isFinite q = true)
    {k : Nat} (inside : k ≤ s.jobs.length) : s.loads[k]? = some (Load.vector s.dims (loadAt s.jobs k)) := by
  rw [loads_eq finite, List.map_map, List.getElem?_map, List.getElem?_range (Nat.lt_succ_of_le inside)]
  rfl

theorem mem_loads {s : RouteState Exact} (finite : ∀ job ∈ s.jobs, ∀ q ∈ job.demand, Quantity.isFinite q = true)
    (load : List Exact) : load ∈ s.loads ↔ ∃ i, i ≤ s.jobs.length ∧ load = Load.vector s.dims (loadAt s.jobs i) := by
  rw [loads_eq finite, List.map_map, List.mem_map]
  simp only [List.mem_range, Nat.lt_succ_iff, Function.comp, eq_comm]

/-- The demands of a route with a job put in. -/
theorem isFinite_insert {s t : RouteState Exact} (finite : ∀ job ∈ s.jobs, ∀ q ∈ job.demand, Quantity.isFinite q = true)
    {job : Job Exact} (finite_job : ∀ q ∈ job.demand, Quantity.isFinite q = true) {k : Nat}
    (jobs : t.jobs = s.jobs.take k ++ job :: s.jobs.drop k) :
    ∀ job' ∈ t.jobs, ∀ q ∈ job'.demand, Quantity.isFinite q = true := by
  rw [jobs]
  intro job' member
  rw [List.mem_append, List.mem_cons] at member
  rcases member with member | rfl | member
  · exact finite job' (List.mem_of_mem_take member)
  · exact finite_job
  · exact finite job' (List.mem_of_mem_drop member)

/-- A capacity with zeros added has as many dimensions as the loads, and a defined amount in each. -/
theorem capacity_isDefined {t : RouteState Exact} (defined : ∀ c ∈ t.vehicle.capacity, c.IsDefined) :
    (t.capacity t.dims).length = t.dims ∧ ∀ d < t.dims, ((t.capacity t.dims).getD d 0).IsDefined := by
  have fits := t.le_dims.1
  have length : (t.capacity t.dims).length = t.dims := by
    rw [capacity, Load.padTo, List.length_append, Load.level, List.length_replicate]
    omega
  refine ⟨length, fun d inside => ?_⟩
  have listed : (t.capacity t.dims).getD d 0 ∈ t.capacity t.dims := by
    rw [List.getD_eq_getElem _ _ (by omega)]
    exact List.getElem_mem _
  rw [capacity, Load.padTo, List.mem_append, Load.level, List.mem_replicate] at listed
  rcases listed with listed | ⟨-, zero⟩
  · exact defined _ listed
  · rw [capacity, Load.padTo, Load.level, zero]
    exact Exact.isDefined_zero

section

variable {s : RouteState Exact} (finite : ∀ job ∈ s.jobs, ∀ q ∈ job.demand, Quantity.isFinite q = true)

include finite

/-- The peaks of a position are those of the loads up to it, and of the loads from it on. -/
theorem peaks_isPeakOf {k : Nat} (inside : k ≤ s.jobs.length) :
    ∃ before ahead, s.peaksBefore[k]? = some before ∧ s.peaksAhead[k]? = some ahead
      ∧ Load.IsPeakOf before s.dims {load | ∃ i ≤ k, s.loads[i]? = some load}
      ∧ Load.IsPeakOf ahead s.dims {load | ∃ i, k ≤ i ∧ s.loads[i]? = some load} := by
  obtain ⟨b, before, greatest_before⟩ := peaksBefore_getElem? finite inside
  obtain ⟨a, ahead, greatest_ahead⟩ := peaksAhead_getElem? finite inside
  refine ⟨_, _, before, ahead, Load.isPeakOf_vector ?_ greatest_before,
    Load.isPeakOf_vector (P := fun i => k ≤ i ∧ i ≤ s.jobs.length) (f := loadAt s.jobs) ?_ ?_⟩
  · intro load
    constructor
    · rintro ⟨i, at_most, found⟩
      rw [loads_getElem? finite (by omega), Option.some.injEq] at found
      exact ⟨i, at_most, found.symm⟩
    · rintro ⟨i, at_most, rfl⟩
      exact ⟨i, at_most, loads_getElem? finite (by omega)⟩
  · intro load
    constructor
    · rintro ⟨i, at_least, found⟩
      have within := (List.getElem?_eq_some_iff.mp found).1
      rw [length_loads, Nat.lt_succ_iff] at within
      rw [loads_getElem? finite within, Option.some.injEq] at found
      exact ⟨i, ⟨at_least, within⟩, found.symm⟩
    · rintro ⟨i, ⟨at_least, within⟩, rfl⟩
      exact ⟨i, at_least, loads_getElem? finite within⟩
  · simpa only [and_assoc] using greatest_ahead

/-- No load exceeds the capacity just when each of its amounts is at most that of the capacity. -/
theorem excesses_eq_empty_iff (capacity : ∀ c ∈ s.vehicle.capacity, c.IsDefined) :
    {x | ∃ load ∈ s.loads, ∃ d < s.dims, (s.capacity s.dims).getD d 0 < load.getD d 0
        ∧ x = load.getD d 0 - (s.capacity s.dims).getD d 0} = ∅
      ↔ ∀ load ∈ s.loads, ∀ d < s.dims, load.getD d 0 ≤ (s.capacity s.dims).getD d 0 := by
  have comparable : ∀ load ∈ s.loads, ∀ d < s.dims,
      ¬(s.capacity s.dims).getD d 0 < load.getD d 0 ↔ load.getD d 0 ≤ (s.capacity s.dims).getD d 0 := by
    intro load listed d within
    obtain ⟨i, -, rfl⟩ := (mem_loads finite load).mp listed
    rw [Load.getD_vector within]
    exact Exact.not_lt ((capacity_isDefined capacity).2 d within) (Exact.isDefined_finite _)
  rw [Set.eq_empty_iff_forall_notMem]
  constructor
  · intro none_above load listed d within
    rw [← comparable load listed d within]
    exact fun above => none_above _ ⟨load, listed, d, within, above, rfl⟩
  · rintro fits x ⟨load, listed, d, within, above, rfl⟩
    exact (comparable load listed d within).mpr (fits load listed d within) above

variable {job : Job Exact} (finite_job : ∀ q ∈ job.demand, Quantity.isFinite q = true) {k : Nat}
  (inside : k ≤ s.jobs.length) {t : RouteState Exact} (vehicle : t.vehicle = s.vehicle)
  (jobs : t.jobs = s.jobs.take k ++ job :: s.jobs.drop k)

include finite_job inside vehicle jobs

/-- The highest load with a job put in is the peak of all loads of the longer route. -/
theorem peakWith_isPeakOf :
    ∃ b, s.peakWith job k = .ok (Load.vector t.dims b)
      ∧ Load.IsPeakOf (Load.vector t.dims b) t.dims {load | load ∈ t.loads} := by
  obtain ⟨b, found, greatest⟩ := peakWith_eq finite finite_job inside
  rw [← dims_insert vehicle jobs] at found
  have length : t.jobs.length = s.jobs.length + 1 := by
    rw [jobs, List.length_append, List.length_cons, List.length_take, List.length_drop]
    omega
  rw [← jobs, ← length] at greatest
  exact ⟨b, found, Load.isPeakOf_vector (mem_loads (isFinite_insert finite finite_job jobs)) greatest⟩

/-- The capacity check finds the greatest excess of all loads of the longer route. -/
theorem checkCapacity_measures (capacity : ∀ c ∈ s.vehicle.capacity, c.IsDefined) (p : Problem Exact) :
    ∃ e, (⟨job, s, k, p⟩ : Insertion Exact).checkCapacity = .ok e
      ∧ e.Measures {x | ∃ load ∈ t.loads, ∃ d < t.dims, (t.capacity t.dims).getD d 0 < load.getD d 0
        ∧ x = load.getD d 0 - (t.capacity t.dims).getD d 0} := by
  obtain ⟨b, found, peak⟩ := peakWith_isPeakOf finite finite_job inside vehicle jobs
  have defined : ∀ c ∈ t.vehicle.capacity, c.IsDefined := by rwa [vehicle]
  obtain ⟨length, capacity_defined⟩ := capacity_isDefined defined
  refine ⟨_, ?_, peak.measures_excess length capacity_defined⟩
  rw [Insertion.checkCapacity, found, except_ok_bind, Load.length_vector, RouteState.capacity, RouteState.capacity, vehicle]
  rfl

end

/-- The loads of a route in numbers, the peaks before and ahead of each position, and, for a job put in anywhere, the
highest load and the greatest excess of the route worked out anew with the job in it. -/
theorem peakWith_eq_rebuilt {s : RouteState Exact}
    (finite : ∀ job ∈ s.jobs, ∀ q ∈ job.demand, Quantity.isFinite q = true)
    (nonneg : ∀ job ∈ s.jobs, ∀ q ∈ job.demand, 0 ≤ q) (capacity : ∀ c ∈ s.vehicle.capacity, c.IsDefined) :
    (s.loads.length = s.jobs.length + 1 ∧ ∀ k ≤ s.jobs.length,
        s.loads[k]? = some (Load.vector s.dims (loadAt s.jobs k)) ∧ ∀ d, 0 ≤ loadAt s.jobs k d)
      ∧ (∀ k ≤ s.jobs.length, ∃ before ahead, s.peaksBefore[k]? = some before ∧ s.peaksAhead[k]? = some ahead
        ∧ Load.IsPeakOf before s.dims {load | ∃ i ≤ k, s.loads[i]? = some load}
        ∧ Load.IsPeakOf ahead s.dims {load | ∃ i, k ≤ i ∧ s.loads[i]? = some load})
      ∧ ∀ job : Job Exact, (∀ q ∈ job.demand, Quantity.isFinite q = true) → ∀ k ≤ s.jobs.length,
        ∀ t : RouteState Exact, t.vehicle = s.vehicle → t.jobs = s.jobs.take k ++ job :: s.jobs.drop k →
        (∃ peak, s.peakWith job k = .ok peak ∧ Load.IsPeakOf peak t.dims {load | load ∈ t.loads})
          ∧ ∀ p, ∃ e, (⟨job, s, k, p⟩ : Insertion Exact).checkCapacity = .ok e
            ∧ (e = .satisfied ↔ ∀ load ∈ t.loads, ∀ d < t.dims, load.getD d 0 ≤ (t.capacity t.dims).getD d 0)
            ∧ e.Measures {x | ∃ load ∈ t.loads, ∃ d < t.dims, (t.capacity t.dims).getD d 0 < load.getD d 0
              ∧ x = load.getD d 0 - (t.capacity t.dims).getD d 0} := by
  refine ⟨⟨length_loads _, fun k inside => ⟨loads_getElem? finite inside, loadAt_nonneg nonneg k⟩⟩,
    fun k inside => peaks_isPeakOf finite inside, fun job finite_job k inside t vehicle jobs => ⟨?_, fun p => ?_⟩⟩
  · obtain ⟨b, found, peak⟩ := peakWith_isPeakOf finite finite_job inside vehicle jobs
    exact ⟨_, found, peak⟩
  · obtain ⟨e, checked, measured⟩ := checkCapacity_measures finite finite_job inside vehicle jobs capacity p
    have capacity : ∀ c ∈ t.vehicle.capacity, c.IsDefined := by rwa [vehicle]
    have finite_all := isFinite_insert finite finite_job jobs
    exact ⟨e, checked, measured.eq_satisfied_iff.trans (excesses_eq_empty_iff finite_all capacity), measured⟩

/-- A parcel that is too heavy for a shuttle with another one. -/
def heavyParcel : Job Exact := { parcel "b" with demand := [.finite 3] }

/-- The shuttle with both parcels. -/
def heavyRoute : RouteState Exact where
  vehicle := shuttle
  matrix := twoPlaces
  jobs := [parcel "a", heavyParcel]
  origin := ⟨0, 0, 0⟩
  base := ⟨[⟨parcel "a", .finite 7, .finite 7, .finite 12, 0, .finite 9⟩,
    ⟨heavyParcel, .finite 12, .finite 12, .finite 17, 0, .finite 9⟩], 0, .finite 24, .finite 18, true⟩
  walk_eq := by decide +kernel

theorem peakWith_eq_rebuilt_heavyRoute :
    (∃ peak, shuttleRoute.peakWith heavyParcel (1 : Nat) = .ok peak
        ∧ Load.IsPeakOf peak heavyRoute.dims {load | load ∈ heavyRoute.loads})
      ∧ Evidence.Measures {x | ∃ load ∈ heavyRoute.loads, ∃ d < heavyRoute.dims,
          (heavyRoute.capacity heavyRoute.dims).getD d 0 < load.getD d 0
            ∧ x = load.getD d 0 - (heavyRoute.capacity heavyRoute.dims).getD d 0} (.violated (some (.finite 1))) := by
  have capacity : ∀ c ∈ shuttleRoute.vehicle.capacity, c.IsDefined := by
    simp [shuttleRoute, shuttle, Exact.IsDefined]
  have rebuilt := (peakWith_eq_rebuilt (by decide) (by decide) capacity).2.2 heavyParcel (by decide) 1 (by decide)
    heavyRoute rfl rfl
  obtain ⟨e, checked, -, measured⟩ := rebuilt.2 shuttlePlan
  have found : (⟨heavyParcel, shuttleRoute, (1 : Nat), shuttlePlan⟩ : Insertion Exact).checkCapacity
      = .ok (.violated (some (.finite 1))) := by decide +kernel
  rw [found, Except.ok.injEq] at checked
  rw [checked]
  exact ⟨rebuilt.1, measured⟩

/-- A shuttle that anything fits into. -/
def endlessShuttle : Vehicle Exact := { shuttle with capacity := [.plusInfinity] }

/-- A parcel of infinite size. -/
def endlessParcel : Job Exact := { parcel "b" with demand := [.plusInfinity] }

/-- The endless shuttle without any jobs. -/
def endlessIdle : RouteState Exact where
  vehicle := endlessShuttle
  matrix := twoPlaces
  jobs := []
  origin := ⟨0, 0, 0⟩
  base := ⟨[], 0, 0, 0, true⟩
  walk_eq := by decide +kernel

/-- The endless shuttle with the infinite parcel. -/
def endlessRoute : RouteState Exact where
  vehicle := endlessShuttle
  matrix := twoPlaces
  jobs := [endlessParcel]
  origin := ⟨0, 0, 0⟩
  base := ⟨[⟨endlessParcel, .finite 7, .finite 7, .finite 12, 0, .finite 9⟩], 0, .finite 19, .finite 18, true⟩
  walk_eq := by decide +kernel

/-- Demands have to be finite. Nothing is left to be delivered after an infinite parcel, but the load there is what an
infinity is above itself and so no number; the capacity check is satisfied, while that load is not within the capacity. -/
theorem loads_undefined_endlessRoute :
    (∀ q ∈ endlessParcel.demand, 0 ≤ q) ∧ (∀ c ∈ endlessShuttle.capacity, c.IsDefined)
      ∧ endlessRoute.jobs = endlessIdle.jobs.take 0 ++ endlessParcel :: endlessIdle.jobs.drop 0
      ∧ endlessRoute.loads = [[.plusInfinity], [.undefined]]
      ∧ endlessRoute.loads[1]? ≠ some (Load.vector endlessRoute.dims (loadAt endlessRoute.jobs 1))
      ∧ (⟨endlessParcel, endlessIdle, (0 : Nat), shuttlePlan⟩ : Insertion Exact).checkCapacity = .ok .satisfied
      ∧ ¬∀ load ∈ endlessRoute.loads, ∀ d < endlessRoute.dims,
          load.getD d 0 ≤ (endlessRoute.capacity endlessRoute.dims).getD d 0 := by
  have loads : endlessRoute.loads = [[.plusInfinity], [.undefined]] := by decide +kernel
  refine ⟨by decide, by simp [endlessShuttle, Exact.IsDefined], rfl, loads, ?_, by decide +kernel, fun within => ?_⟩
  · rw [loads]
    decide
  · have fits := within [.undefined] (by simp [loads]) 0 (by decide)
    exact absurd fits (by decide)

end RouteState

end Leftover
