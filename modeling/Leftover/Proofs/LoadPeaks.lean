/-
# The highest load

The peaks before and after a position are kept for a route as it is. Together with the demand of a job they give the
highest load of the route with the job put in there, so the capacity check looks at every load of the longer route.

* `Load.getElem?_profileFrom` : the load after some stops
* `Load.peaks_getElem?` : a peak is the greatest of the loads so far
* `RouteState.peakWith_eq` : the greatest of the loads with a job put in
* `Insertion.checkCapacity_eq_satisfied` : the capacity is kept just when every load of the longer route fits
-/
import Leftover.Check.Suitability
import Leftover.Proofs.LoadProfile
import Leftover.Proofs.Outcome

namespace Leftover

/-! ## Running peaks -/

namespace Load

theorem larger_vector (dims : Nat) (f g : Nat → Rat) :
    List.zipWith Quantity.larger (vector dims f) (vector dims g) = vector dims fun d => max (f d) (g d) := by
  rw [zipWith_vector]
  simp only [Exact.larger_finite]
  rfl

/-- Each peak from a peak on is the greatest of that one and the loads so far. -/
theorem peaksFrom_getElem? (dims : Nat) {fs : List (Nat → Rat)} (p : Nat → Rat) {k : Nat} (inside : k < fs.length) :
    ∃ b, (peaksFrom (vector dims p) (fs.map (vector dims)))[k]? = some (vector dims b)
      ∧ ∀ d, IsGreatest {x | x = p d ∨ ∃ f ∈ fs.take (k + 1), x = f d} (b d) := by
  induction fs generalizing p k with
  | nil => exact absurd inside (by simp)
  | cons f rest ih =>
    rw [List.map_cons, peaksFrom]
    simp only [larger_vector]
    cases k with
    | zero =>
      refine ⟨_, rfl, fun d => ⟨?_, ?_⟩⟩
      · rcases max_choice (p d) (f d) with h | h
        · exact Or.inl h
        · exact Or.inr ⟨f, by simp, h⟩
      · rintro x (rfl | ⟨g, member, rfl⟩)
        · exact le_max_left _ _
        · have same : g = f := by simpa using member
          rw [same]
          exact le_max_right _ _
    | succ k =>
      obtain ⟨b, found, greatest⟩ := ih (fun d => max (p d) (f d)) (Nat.lt_of_succ_lt_succ inside)
      refine ⟨b, by simpa using found, fun d => ?_⟩
      obtain ⟨attained, above⟩ := greatest d
      constructor
      · rcases attained with h | ⟨g, member, h⟩
        · rcases max_choice (p d) (f d) with h' | h'
          · exact Or.inl (h.trans h')
          · exact Or.inr ⟨f, by simp, h.trans h'⟩
        · exact Or.inr ⟨g, by simp [member], h⟩
      · have first : max (p d) (f d) ≤ b d := above (Or.inl rfl)
        rintro x (rfl | ⟨g, member, rfl⟩)
        · exact (le_max_left _ _).trans first
        · rw [List.take_succ_cons, List.mem_cons] at member
          rcases member with rfl | member
          · exact (le_max_right _ _).trans first
          · exact above (Or.inr ⟨g, member, rfl⟩)

/-- A peak is the greatest of the loads so far. -/
theorem peaks_getElem? (dims : Nat) {fs : List (Nat → Rat)} {k : Nat} (inside : k < fs.length) :
    ∃ b, (peaks dims (fs.map (vector dims)))[k]? = some (vector dims b)
      ∧ ∀ d, IsGreatest {x | ∃ f ∈ fs.take (k + 1), x = f d} (b d) := by
  cases fs with
  | nil => exact absurd inside (by simp)
  | cons f rest =>
    -- every load lies above the level that the peaks begin with
    have first : List.zipWith Quantity.larger (level dims Quantity.minusInfinity) (vector dims f) = vector dims f := by
      have level_eq : (level dims Quantity.minusInfinity : List Exact)
          = (List.range dims).map fun _ => Quantity.minusInfinity := by simp [level]
      rw [level_eq, vector, List.zipWith_map, List.zipWith_self]
      rfl
    rw [peaks, List.map_cons, peaksFrom]
    simp only [first]
    cases k with
    | zero =>
      refine ⟨f, rfl, fun d => ⟨⟨f, by simp, rfl⟩, ?_⟩⟩
      rintro x ⟨g, member, rfl⟩
      have same : g = f := by simpa using member
      rw [same]
    | succ k =>
      obtain ⟨b, found, greatest⟩ := peaksFrom_getElem? dims f (Nat.lt_of_succ_lt_succ inside)
      refine ⟨b, by simpa using found, fun d => ?_⟩
      -- the first load has become the peak to begin with
      have same : {x | ∃ g ∈ (f :: rest).take (k + 1 + 1), x = g d} = {x | x = f d ∨ ∃ g ∈ rest.take (k + 1), x = g d} := by
        ext x
        simp
      rw [same]
      exact greatest d

theorem length_profileFrom {α : Type} [Quantity α] (xs : List α) (jobs : List (Job α)) :
    (profileFrom xs jobs).length = jobs.length + 1 := by
  induction jobs generalizing xs with
  | nil => rfl
  | cons job rest ih => simp [profileFrom, ih]

/-- The load after some stops is the first one with the jobs up to there done. -/
theorem getElem?_profileFrom {α : Type} [Quantity α] (xs : List α) {jobs : List (Job α)} {k : Nat}
    (inside : k ≤ jobs.length) : (profileFrom xs jobs)[k]? = some ((jobs.take k).foldl after xs) := by
  induction jobs generalizing xs k with
  | nil =>
    obtain rfl : k = 0 := Nat.le_zero.mp inside
    rfl
  | cons job rest ih =>
    cases k with
    | zero => rfl
    | succ k =>
      rw [profileFrom, List.getElem?_cons_succ, List.take_succ_cons, List.foldl_cons]
      exact ih _ (Nat.le_of_succ_le_succ inside)

theorem length_peaksFrom {α : Type} [Quantity α] (peak : List α) (loads : List (List α)) :
    (peaksFrom peak loads).length = loads.length := by
  induction loads generalizing peak with
  | nil => rfl
  | cons xs rest ih => simp [peaksFrom, ih]

/-- A peak ahead is the greatest of the loads still to come. -/
theorem peaksAhead_getElem? (dims : Nat) {fs : List (Nat → Rat)} {k : Nat} (inside : k < fs.length) :
    ∃ b, (peaksAhead dims (fs.map (vector dims)))[k]? = some (vector dims b)
      ∧ ∀ d, IsGreatest {x | ∃ f ∈ fs.drop k, x = f d} (b d) := by
  have inside' : fs.length - 1 - k < fs.reverse.length := by rw [List.length_reverse]; omega
  obtain ⟨b, found, greatest⟩ := peaks_getElem? dims inside'
  have length : (peaks dims (fs.map (vector dims)).reverse).length = fs.length := by
    rw [peaks, length_peaksFrom, List.length_reverse, List.length_map]
  refine ⟨b, ?_, fun d => ?_⟩
  · rw [peaksAhead, List.getElem?_reverse (by rw [length]; exact inside), length, ← List.map_reverse]
    exact found
  · -- the loads so far, seen from the end, are those still to come
    have same : fs.reverse.take (fs.length - 1 - k + 1) = (fs.drop k).reverse := by
      rw [List.take_reverse, show fs.length - (fs.length - 1 - k + 1) = k by omega]
    have greatest := greatest d
    simp only [same, List.mem_reverse] at greatest
    exact greatest

/-- Peaks joined dimension by dimension. -/
theorem joinPeaks_vector (kind : JobKind) (dims : Nat) (b a q : Nat → Rat) :
    joinPeaks kind (vector dims b) (vector dims a) (vector dims q) = vector dims fun d =>
      max (b d + if kind = .delivery then q d else 0) (a d + if kind = .pickup then q d else 0) := by
  have pair : ∀ f g : Nat → Rat, (vector dims f).zip (vector dims g)
      = (List.range dims).map fun d => (Exact.finite (f d), Exact.finite (g d)) := zipWith_vector Prod.mk dims
  cases kind with
  | delivery =>
    rw [joinPeaks, pair, vector, List.zipWith_map, List.zipWith_self]
    simp [vector, Exact.larger_finite]
  | pickup =>
    rw [joinPeaks, pair, vector, List.zipWith_map, List.zipWith_self]
    simp [vector, Exact.larger_finite]

end Load

/-! ## Peaks of a route -/

namespace RouteState

theorem foldl_max_eq (n : Nat) (ns : List Nat) : ns.foldl max n = max n (ns.foldl max 0) := by
  have pulled : ns.foldl max (max n 0) = max n (ns.foldl max 0) := List.foldl_assoc
  rwa [Nat.max_zero] at pulled

theorem le_foldl_max {n : Nat} {ns : List Nat} (member : n ∈ ns) : n ≤ ns.foldl max 0 := by
  induction ns with
  | nil => exact absurd member (by simp)
  | cons m rest ih =>
    rw [List.foldl_cons, foldl_max_eq]
    rcases List.mem_cons.mp member with rfl | member
    · exact le_max_of_le_left (le_max_right _ _)
    · exact le_max_of_le_right (ih member)

/-- A vehicle's capacity and its jobs' demands have no more dimensions than its loads. -/
theorem le_dims (s : RouteState Exact) :
    s.vehicle.capacity.length ≤ s.dims ∧ ∀ job ∈ s.jobs, job.demand.length ≤ s.dims := by
  rw [dims, foldl_max_eq]
  constructor
  · exact le_max_left _ _
  · intro job member
    exact le_max_of_le_right (le_foldl_max (List.mem_map_of_mem member))

/-- The dimensions of the loads with a job put in. -/
theorem dims_insert {s t : RouteState Exact} {job : Job Exact} {k : Nat} (vehicle : t.vehicle = s.vehicle)
    (jobs : t.jobs = s.jobs.take k ++ job :: s.jobs.drop k) : t.dims = max s.dims job.demand.length := by
  have parts := List.take_append_drop k s.jobs
  have all : (s.jobs.map fun job => job.demand.length) = (s.jobs.take k).map (fun job => job.demand.length)
      ++ (s.jobs.drop k).map fun job => job.demand.length := by
    rw [← List.map_append, parts]
  rw [dims, dims, vehicle, jobs, all, List.map_append, List.map_cons, List.foldl_append, List.foldl_append,
    List.foldl_cons]
  -- the new demand is pulled out of the jobs around it
  rw [foldl_max_eq _ ((s.jobs.drop k).map _), foldl_max_eq (List.foldl max _ _) ((s.jobs.drop k).map _)]
  omega

/-- In dimensions beyond those of the route there is no load. -/
theorem loadAt_beyond {s : RouteState Exact} {k d : Nat} (beyond : s.dims ≤ d) : loadAt s.jobs k d = 0 := by
  have nothing : ∀ job ∈ s.jobs, Load.amountIn job.demand d = 0 := by
    intro job member
    have short := s.le_dims.2 job member
    rw [Load.amountIn, List.getElem?_eq_none (by omega)]
    rfl
  have dropped : droppedBy (s.jobs.drop k) d = 0 := by
    apply List.sum_eq_zero
    intro x member
    obtain ⟨job, listed, rfl⟩ := List.mem_map.mp member
    simp [Job.dropped, nothing job (List.mem_of_mem_drop listed)]
  have collected : collectedBy (s.jobs.take k) d = 0 := by
    apply List.sum_eq_zero
    intro x member
    obtain ⟨job, listed, rfl⟩ := List.mem_map.mp member
    simp [Job.collected, nothing job (List.mem_of_mem_take listed)]
  rw [loadAt, dropped, collected, add_zero]

/-- There is one load more than there are stops. -/
theorem length_loads {α : Type} [Quantity α] (s : RouteState α) : s.loads.length = s.jobs.length + 1 :=
  Load.length_profileFrom _ _

section

variable {s : RouteState Exact} (finite : ∀ job ∈ s.jobs, ∀ q ∈ job.demand, Quantity.isFinite q = true)

include finite

/-- The loads of a route, from its start to its end. -/
theorem loads_eq : s.loads = ((List.range (s.jobs.length + 1)).map (loadAt s.jobs)).map (Load.vector s.dims) := by
  rw [loads, Load.profile_eq_map finite, List.map_map]
  rfl

/-- The peak before a position is the greatest of the loads up to it. -/
theorem peaksBefore_getElem? {k : Nat} (inside : k ≤ s.jobs.length) :
    ∃ b, s.peaksBefore[k]? = some (Load.vector s.dims b)
      ∧ ∀ d, IsGreatest {x | ∃ i ≤ k, x = loadAt s.jobs i d} (b d) := by
  have inside' : k < ((List.range (s.jobs.length + 1)).map (loadAt s.jobs)).length := by simp; omega
  obtain ⟨b, found, greatest⟩ := Load.peaks_getElem? s.dims inside'
  refine ⟨b, by rw [peaksBefore, loads_eq finite]; exact found, fun d => ?_⟩
  have greatest := greatest d
  rw [← List.map_take, List.take_range, min_eq_left (by omega)] at greatest
  simpa [Nat.lt_succ_iff] using greatest

/-- The peak from a position on is the greatest of the loads from there to the end. -/
theorem peaksAhead_getElem? {k : Nat} (inside : k ≤ s.jobs.length) :
    ∃ a, s.peaksAhead[k]? = some (Load.vector s.dims a)
      ∧ ∀ d, IsGreatest {x | ∃ i, k ≤ i ∧ i ≤ s.jobs.length ∧ x = loadAt s.jobs i d} (a d) := by
  have inside' : k < ((List.range (s.jobs.length + 1)).map (loadAt s.jobs)).length := by simp; omega
  obtain ⟨a, found, greatest⟩ := Load.peaksAhead_getElem? s.dims inside'
  refine ⟨a, by rw [peaksAhead, loads_eq finite]; exact found, fun d => ?_⟩
  have greatest := greatest d
  have same : {x | ∃ f ∈ ((List.range (s.jobs.length + 1)).map (loadAt s.jobs)).drop k, x = f d}
      = {x | ∃ i, k ≤ i ∧ i ≤ s.jobs.length ∧ x = loadAt s.jobs i d} := by
    ext x
    rw [← List.map_drop, List.range_eq_range', List.drop_range']
    simp only [List.mem_map, List.mem_range'_1, Set.mem_ofPred_eq]
    constructor
    · rintro ⟨f, ⟨i, bounds, rfl⟩, rfl⟩
      exact ⟨i, by omega, by omega, rfl⟩
    · rintro ⟨i, low, high, rfl⟩
      exact ⟨_, ⟨i, by omega, rfl⟩, rfl⟩
  rwa [same] at greatest

end

/-! ### A job put in -/

section

variable {s : RouteState Exact} (finite : ∀ job ∈ s.jobs, ∀ q ∈ job.demand, Quantity.isFinite q = true)
  {job : Job Exact} (finite_job : ∀ q ∈ job.demand, Quantity.isFinite q = true)

include finite finite_job

/-- The peak with a job put in is the greatest of all loads of the longer route. -/
theorem peakWith_eq {k : Nat} (inside : k ≤ s.jobs.length) :
    ∃ p, s.peakWith job k = .ok (Load.vector (max s.dims job.demand.length) p)
      ∧ ∀ d, IsGreatest {x | ∃ i ≤ s.jobs.length + 1, x = loadAt (s.jobs.take k ++ job :: s.jobs.drop k) i d}
        (p d) := by
  obtain ⟨b, before, greatest_before⟩ := peaksBefore_getElem? finite inside
  obtain ⟨a, ahead, greatest_ahead⟩ := peaksAhead_getElem? finite inside
  -- peaks are loads, so they can be padded with zeros as well
  have b_beyond : ∀ d, s.dims ≤ d → b d = 0 := by
    intro d beyond
    obtain ⟨i, -, same⟩ := (greatest_before d).1
    rw [same, loadAt_beyond beyond]
  have a_beyond : ∀ d, s.dims ≤ d → a d = 0 := by
    intro d beyond
    obtain ⟨i, -, -, same⟩ := (greatest_ahead d).1
    rw [same, loadAt_beyond beyond]
  have joined : s.peakWith job k = .ok (Load.vector (max s.dims job.demand.length) fun d =>
      max (b d + job.dropped d) (a d + job.collected d)) := by
    rw [peakWith]
    simp only [itemAt?_natCast, before, ahead]
    rw [Load.padTo_vector (le_max_left _ _) b_beyond, Load.padTo_vector (le_max_left _ _) a_beyond,
      Load.padTo_eq_vector finite_job (le_max_right _ _)]
    rw [Load.joinPeaks_vector]
    rfl
  refine ⟨_, joined, fun d => ⟨?_, ?_⟩⟩
  · -- the peak is the load at some point before the job or after it
    rcases max_choice (b d + job.dropped d) (a d + job.collected d) with h | h
    · obtain ⟨i, before_job, same⟩ := (greatest_before d).1
      refine ⟨i, by omega, ?_⟩
      rw [h, same, loadAt_insert_before job inside before_job]
    · obtain ⟨i, after_job, within, same⟩ := (greatest_ahead d).1
      refine ⟨i + 1, by omega, ?_⟩
      rw [h, same, loadAt_insert_after job inside after_job]
  · -- each load of the longer route lies below the peak on its side of the job
    rintro x ⟨i, within, rfl⟩
    by_cases before_job : i ≤ k
    · rw [loadAt_insert_before job inside before_job]
      have low := (greatest_before d).2 ⟨i, before_job, rfl⟩
      exact le_max_of_le_left (by linarith)
    · obtain ⟨i, rfl⟩ := Nat.exists_eq_succ_of_ne_zero (show i ≠ 0 by omega)
      rw [Nat.succ_eq_add_one, loadAt_insert_after job inside (by omega)]
      have low := (greatest_ahead d).2 ⟨i, by omega, by omega, rfl⟩
      exact le_max_of_le_right (by linarith)

end

/-- The loads of a route fit its vehicle: in no dimension is there more on board than the capacity allows. -/
theorem loads_fit_iff {t : RouteState Exact} (finite : ∀ job ∈ t.jobs, ∀ q ∈ job.demand, Quantity.isFinite q = true)
    (finite_capacity : ∀ c ∈ t.vehicle.capacity, Quantity.isFinite c = true) :
    (∀ load ∈ t.loads, List.Forall₂ (· ≤ ·) load (t.capacity t.dims)) ↔
      ∀ d < t.dims, ∀ i ≤ t.jobs.length, loadAt t.jobs i d ≤ Load.amountIn t.vehicle.capacity d := by
  rw [loads_eq finite, capacity, Load.padTo_eq_vector finite_capacity t.le_dims.1]
  simp only [List.mem_map, List.mem_range, forall_exists_index, and_imp, forall_apply_eq_imp_iff₂, Load.vector,
    List.forall₂_map_left_iff, List.forall₂_map_right_iff, List.forall₂_same, Exact.finite_le_finite]
  constructor
  · intro fits d inside i within
    exact fits i (by omega) d inside
  · intro fits i within d inside
    exact fits d inside i (by omega)

end RouteState

/-! ## The capacity check -/

/-- The capacity is kept just when every load of the longer route fits. -/
theorem Insertion.checkCapacity_eq_satisfied {s : RouteState Exact}
    (finite : ∀ job ∈ s.jobs, ∀ q ∈ job.demand, Quantity.isFinite q = true)
    (finite_capacity : ∀ c ∈ s.vehicle.capacity, Quantity.isFinite c = true) {job : Job Exact}
    (finite_job : ∀ q ∈ job.demand, Quantity.isFinite q = true) {k : Nat} (inside : k ≤ s.jobs.length)
    (p : Problem Exact) :
    (⟨job, s, k, p⟩ : Insertion Exact).checkCapacity = .ok .satisfied ↔
      ∀ d < max s.dims job.demand.length, ∀ i ≤ s.jobs.length + 1,
        loadAt (s.jobs.take k ++ job :: s.jobs.drop k) i d ≤ Load.amountIn s.vehicle.capacity d := by
  obtain ⟨peak, found, greatest⟩ := RouteState.peakWith_eq finite finite_job inside
  have fits : s.vehicle.capacity.length ≤ max s.dims job.demand.length := le_max_of_le_left s.le_dims.1
  have checked : (⟨job, s, k, p⟩ : Insertion Exact).checkCapacity
      = .ok (.ofExcess (Quantity.largest 0 ((List.range (max s.dims job.demand.length)).map fun d =>
        Exact.finite (peak d - Load.amountIn s.vehicle.capacity d)))) := by
    rw [checkCapacity, found, except_ok_bind, Load.length_vector, RouteState.capacity,
      Load.padTo_eq_vector finite_capacity fits, Load.zipWith_vector]
    simp
  have defined : ∀ x ∈ (List.range (max s.dims job.demand.length)).map fun d =>
      Exact.finite (peak d - Load.amountIn s.vehicle.capacity d), x.IsDefined := by
    intro x member
    obtain ⟨d, -, rfl⟩ := List.mem_map.mp member
    exact Exact.isDefined_finite _
  rw [checked, Except.ok.injEq, Evidence.ofExcess_eq_satisfied (Exact.isDefined_largest Exact.isDefined_zero defined),
    Exact.largest_le_iff defined (Exact.le_refl Exact.isDefined_zero)]
  simp only [List.mem_map, List.mem_range, forall_exists_index, and_imp, forall_apply_eq_imp_iff₂,
    Exact.finite_le_zero, sub_nonpos]
  -- the greatest load fits just when all of them do
  refine forall_congr' fun d => forall_congr' fun _ => ?_
  rw [isLUB_le_iff (greatest d).isLUB]
  constructor
  · intro bound i within
    exact bound ⟨i, within, rfl⟩
  · rintro fits x ⟨i, within, rfl⟩
    exact fits i within

end Leftover
