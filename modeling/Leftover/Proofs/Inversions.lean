/-
# Jobs in the wrong order

Of two jobs with an order value the one with the lower value is to be served first. How far a route is from that is told
by its inversions, the pairs of jobs that it serves the other way round. A job that is put into a route adds just as many
of them as the priority check counts, so the check is satisfied where none are added; and in a route without inversions
there is such a position for every job.

* `inversionCount`, `inversionCount_eq_card` : the inversions of a list of jobs
* `inversionCount_insertAt` : those of a list with one more job
* `exists_orderedPosition` : a job has a place in a list without inversions
* `RouteState.checkPriority_counts` : what the priority check tells about a route
-/
import Leftover.Check.Sequence
import Leftover.Proofs.Drive
import Mathlib.Algebra.BigOperators.Fin
import Mathlib.Data.Fintype.Prod

namespace Leftover

variable {α : Type}

/-! ## Inversions -/

/-- The job is to be served after the other one: both have an order value, and its own is the higher one. -/
def Job.follows (job other : Job α) : Bool := job.order.any fun x => other.order.any (· < x)

theorem Job.follows_iff {job other : Job α} :
    job.follows other = true ↔ ∃ x y, job.order = some x ∧ other.order = some y ∧ y < x := by
  rw [follows]
  cases job.order <;> cases other.order <;> simp

/-- The inversions of a list of jobs: the pairs of an earlier and a later job of which the earlier one is to be served
after the later one. -/
def inversionCount : List (Job α) → Nat
  | [] => 0
  | job :: rest => rest.countP job.follows + inversionCount rest

@[simp] theorem inversionCount_cons (job : Job α) (rest : List (Job α)) :
    inversionCount (job :: rest) = rest.countP job.follows + inversionCount rest := rfl

/-- There is no inversion if no job is to be served after a later one. -/
theorem inversionCount_eq_zero {jobs : List (Job α)} :
    inversionCount jobs = 0 ↔ jobs.Pairwise fun earlier later => earlier.follows later = false := by
  induction jobs with
  | nil => simp [inversionCount]
  | cons job rest ih => simp [ih, List.countP_eq_zero]

/-- The inversions between two lists of jobs of which one is served before the other. -/
def inversionsAcross : List (Job α) → List (Job α) → Nat
  | [], _ => 0
  | job :: rest, later => later.countP job.follows + inversionsAcross rest later

theorem inversionCount_append (before after : List (Job α)) :
    inversionCount (before ++ after) = inversionCount before + inversionCount after + inversionsAcross before after := by
  induction before with
  | nil => simp [inversionCount, inversionsAcross]
  | cons job rest ih =>
    rw [List.cons_append, inversionCount_cons, inversionCount_cons, inversionsAcross, List.countP_append, ih]
    omega

/-- One more job in the later list is one more for each earlier job that is to be served after it. -/
theorem inversionsAcross_cons (before : List (Job α)) (job : Job α) (after : List (Job α)) :
    inversionsAcross before (job :: after) = before.countP (·.follows job) + inversionsAcross before after := by
  induction before with
  | nil => rfl
  | cons first rest ih =>
    rw [inversionsAcross, inversionsAcross, ih, List.countP_cons, List.countP_cons]
    omega

/-- A job between two lists is in an inversion with each earlier job that is to be served after it, and with each later
job before which it is to be served. -/
theorem inversionCount_between (before : List (Job α)) (job : Job α) (after : List (Job α)) :
    inversionCount (before ++ job :: after)
      = inversionCount (before ++ after) + (before.countP (·.follows job) + after.countP job.follows) := by
  rw [inversionCount_append, inversionCount_append, inversionsAcross_cons, inversionCount_cons]
  omega

/-- The number of items of some kind, counted by their places. -/
theorem countP_eq_sum {β : Type} (p : β → Bool) (xs : List β) :
    xs.countP p = ∑ i : Fin xs.length, if p xs[i] = true then 1 else 0 := by
  induction xs with
  | nil => rfl
  | cons x rest ih =>
    show _ = ∑ i : Fin (rest.length + 1), if p (x :: rest)[i] = true then 1 else 0
    rw [List.countP_cons, ih, Fin.sum_univ_succ, Nat.add_comm]
    rfl

/-- The inversions are the pairs of places of which the earlier one has a job that is to be served after that of the
later one. -/
theorem inversionCount_eq_card (jobs : List (Job α)) :
    inversionCount jobs = (Finset.univ.filter fun places : Fin jobs.length × Fin jobs.length =>
      places.1 < places.2 ∧ jobs[places.1].follows jobs[places.2] = true).card := by
  rw [Finset.card_filter, Fintype.sum_prod_type]
  induction jobs with
  | nil => rfl
  | cons job rest ih =>
    show _ = ∑ i : Fin (rest.length + 1), ∑ j : Fin (rest.length + 1),
      if i < j ∧ (job :: rest)[i].follows (job :: rest)[j] = true then 1 else 0
    rw [inversionCount_cons, ih, countP_eq_sum, Fin.sum_univ_succ]
    congr 1
    · rw [Fin.sum_univ_succ]
      simp [-Finset.sum_boole]
    · refine Finset.sum_congr rfl fun i _ => ?_
      rw [Fin.sum_univ_succ]
      simp [-Finset.sum_boole]

/-! ## A place for a job -/

theorem Job.follows_trans {a b c : Job α} (first : a.follows b = true) (second : b.follows c = true) :
    a.follows c = true := by
  obtain ⟨x, y, hx, hy, less⟩ := follows_iff.mp first
  obtain ⟨y', z, hy', hz, less'⟩ := follows_iff.mp second
  obtain rfl := Option.some.inj (hy.symm.trans hy')
  exact follows_iff.mpr ⟨x, z, hx, hz, Int.lt_trans less' less⟩

theorem Job.follows_asymm {a b : Job α} (first : a.follows b = true) : b.follows a = false := by
  by_contra second
  obtain ⟨x, y, hx, hy, less⟩ := follows_iff.mp (follows_trans first (by simpa using second))
  obtain rfl := Option.some.inj (hx.symm.trans hy)
  exact Int.lt_irrefl x less

/-- In a list without inversions there is a place for every job: before the first one that is to be served after it. -/
theorem exists_orderedPosition {jobs : List (Job α)} (ordered : inversionCount jobs = 0) (job : Job α) :
    ∃ k ≤ jobs.length, (jobs.take k).countP (·.follows job) + (jobs.drop k).countP job.follows = 0 := by
  induction jobs with
  | nil => exact ⟨0, le_rfl, rfl⟩
  | cons first rest ih =>
    have pairs := List.pairwise_cons.mp (inversionCount_eq_zero.mp ordered)
    by_cases later : first.follows job = true
    · -- what is to be served before the job would also be served before the first one
      refine ⟨0, Nat.zero_le _, ?_⟩
      rw [List.take_zero, List.drop_zero, List.countP_nil, Nat.zero_add, List.countP_eq_zero, List.forall_mem_cons]
      refine ⟨by simp [Job.follows_asymm later], fun other listed earlier => ?_⟩
      exact absurd (Job.follows_trans later earlier) (by simp [pairs.1 other listed])
    · obtain ⟨k, inside, free⟩ := ih (inversionCount_eq_zero.mpr pairs.2)
      refine ⟨k + 1, Nat.succ_le_succ inside, ?_⟩
      rw [List.take_succ_cons, List.drop_succ_cons, List.countP_cons, if_neg later]
      exact free

/-! ## The check -/

/-- Evidence of so many things that are wrong: a violation by their number, and none if there is none. -/
inductive Evidence.Counts {α : Type} [Quantity α] : Nat → Evidence α → Prop where
  | none_wrong : Counts 0 .satisfied
  | some_wrong {n : Nat} (positive : 0 < n) : Counts n (.violated (some (Quantity.ofNat n)))

section

variable [Quantity α]

theorem Evidence.Counts.eq_satisfied_iff {n : Nat} {e : Evidence α} (counted : e.Counts n) : e = .satisfied ↔ n = 0 := by
  cases counted with
  | none_wrong => exact iff_of_true rfl rfl
  | some_wrong positive => exact iff_of_false (by simp) (Nat.ne_of_gt positive)

/-- The inversions that an inserted job adds. -/
def Insertion.addedInversions (i : Insertion α) : Nat :=
  (upTo i.state.jobs i.position).countP (·.follows i.job) + (onward i.state.jobs i.position).countP i.job.follows

theorem inversionCount_insertAt (i : Insertion α) :
    inversionCount (insertAt i.state.jobs i.position i.job) = inversionCount i.state.jobs + i.addedInversions := by
  rw [insertAt, inversionCount_between, upTo_append_onward]
  rfl

/-- The priority check counts the inversions that the job adds. -/
theorem Insertion.exists_checkPriority (i : Insertion α) :
    ∃ evidence, i.checkPriority = .ok evidence ∧ evidence.Counts i.addedInversions := by
  rw [checkPriority, addedInversions]
  cases given : i.job.order with
  | none =>
    -- a job without an order value is in no inversion
    have none_before : ∀ other ∈ upTo i.state.jobs i.position, ¬other.follows i.job = true := by
      simp [Job.follows, given]
    have none_after : ∀ other ∈ onward i.state.jobs i.position, ¬i.job.follows other = true := by
      simp [Job.follows, given]
    rw [List.countP_eq_zero.mpr none_before, List.countP_eq_zero.mpr none_after]
    exact ⟨.satisfied, rfl, .none_wrong⟩
  | some order =>
    have before : ∀ other : Job α, other.follows i.job = other.order.any (order < ·) := by
      simp [Job.follows, given]
    have after : i.job.follows = fun other => other.order.any (· < order) := by
      funext other
      simp [Job.follows, given]
    have same : i.inversions order = (upTo i.state.jobs i.position).countP (·.follows i.job)
        + (onward i.state.jobs i.position).countP i.job.follows := by
      simp only [inversions, countOrders, before, after]
    rw [← same]
    by_cases zero : i.inversions order = 0
    · refine ⟨.satisfied, by simp [zero], ?_⟩
      rw [zero]
      exact .none_wrong
    · exact ⟨.violated (some (Quantity.ofNat (i.inversions order))), by simp [zero], .some_wrong (Nat.pos_of_ne_zero zero)⟩

/-- The priority check, for any job and at any position, counts the inversions that the job adds to the route when it is
put in there; so it is satisfied just where the job adds none. Into a route without inversions every job can be put at one
of the positions of the route so that the check is satisfied, and wherever it is satisfied no inversion comes about. -/
theorem RouteState.checkPriority_counts (s : RouteState α) (p : Problem α) :
    (∀ (job : Job α) (position : Int), ∃ (evidence : Evidence α) (added : Nat),
        Insertion.checkPriority ⟨job, s, position, p⟩ = .ok evidence ∧ evidence.Counts added
        ∧ inversionCount (insertAt s.jobs position job) = inversionCount s.jobs + added
        ∧ (evidence = .satisfied ↔ inversionCount (insertAt s.jobs position job) = inversionCount s.jobs))
      ∧ (inversionCount s.jobs = 0 → ∀ job : Job α,
        (∃ k ∈ s.positions, Insertion.checkPriority ⟨job, s, k, p⟩ = .ok .satisfied)
        ∧ ∀ position : Int, Insertion.checkPriority ⟨job, s, position, p⟩ = .ok .satisfied →
          inversionCount (insertAt s.jobs position job) = 0) := by
  have counts : ∀ (job : Job α) (position : Int), ∃ (evidence : Evidence α) (added : Nat),
      Insertion.checkPriority ⟨job, s, position, p⟩ = .ok evidence ∧ evidence.Counts added
      ∧ inversionCount (insertAt s.jobs position job) = inversionCount s.jobs + added
      ∧ (evidence = .satisfied ↔ inversionCount (insertAt s.jobs position job) = inversionCount s.jobs) := by
    intro job position
    have adds : inversionCount (insertAt s.jobs position job) = inversionCount s.jobs
        + Insertion.addedInversions ⟨job, s, position, p⟩ := inversionCount_insertAt ⟨job, s, position, p⟩
    obtain ⟨evidence, checked, counted⟩ := Insertion.exists_checkPriority (⟨job, s, position, p⟩ : Insertion α)
    refine ⟨evidence, _, checked, counted, adds, ?_⟩
    rw [counted.eq_satisfied_iff, adds]
    omega
  refine ⟨counts, fun ordered job => ⟨?_, fun position satisfied => ?_⟩⟩
  · obtain ⟨k, inside, free⟩ := exists_orderedPosition ordered job
    obtain ⟨evidence, checked, counted⟩ := Insertion.exists_checkPriority (⟨job, s, k, p⟩ : Insertion α)
    have none_added : Insertion.addedInversions ⟨job, s, k, p⟩ = 0 := by
      simpa only [Insertion.addedInversions, upTo_natCast, onward_natCast] using free
    refine ⟨k, List.mem_range.mpr (Nat.lt_succ_of_le inside), ?_⟩
    rw [checked, counted.eq_satisfied_iff.mpr none_added]
  · obtain ⟨evidence, added, checked, -, -, same⟩ := counts job position
    obtain rfl := Except.ok.inj (checked.symm.trans satisfied)
    rw [same.mp rfl, ordered]

end

/-! ### Ranked parcels -/

/-- A parcel with an order value. -/
def rankedParcel (name : String) (order : Int) : Job Exact := { RouteState.parcel name with order := some order }

/-- The plan of the shuttle with three ranked parcels. -/
def rankedPlan : Problem Exact where
  jobs := [rankedParcel "a" 1, rankedParcel "b" 2, rankedParcel "c" 3]
  fleet := [RouteState.shuttle]
  relations := []
  matrices := [("car", RouteState.twoPlaces)]

/-- The route of the shuttle with the first and the last of them. -/
def rankedRoute : RouteState Exact where
  vehicle := RouteState.shuttle
  matrix := RouteState.twoPlaces
  jobs := [rankedParcel "a" 1, rankedParcel "c" 3]
  origin := ⟨0, 0, 0⟩
  base := ⟨[⟨rankedParcel "a" 1, .finite 7, .finite 7, .finite 12, 0, .finite 9⟩,
    ⟨rankedParcel "c" 3, .finite 12, .finite 12, .finite 17, 0, .finite 9⟩], 0, .finite 24, .finite 18, true⟩
  walk_eq := by decide +kernel

theorem RouteState.checkPriority_counts_ranked :
    inversionCount rankedRoute.jobs = 0
      ∧ (∃ k ∈ rankedRoute.positions, Insertion.checkPriority ⟨rankedParcel "b" 2, rankedRoute, k, rankedPlan⟩ = .ok .satisfied)
      ∧ Insertion.checkPriority ⟨rankedParcel "b" 2, rankedRoute, 1, rankedPlan⟩ = .ok .satisfied
      ∧ inversionCount (insertAt rankedRoute.jobs 1 (rankedParcel "b" 2)) = 0 := by
  have ordered : inversionCount rankedRoute.jobs = 0 := by decide +kernel
  have satisfied : Insertion.checkPriority ⟨rankedParcel "b" 2, rankedRoute, 1, rankedPlan⟩ = .ok .satisfied := by
    decide +kernel
  obtain ⟨place, kept⟩ := (RouteState.checkPriority_counts rankedRoute rankedPlan).2 ordered (rankedParcel "b" 2)
  exact ⟨ordered, place, satisfied, kept 1 satisfied⟩

end Leftover
