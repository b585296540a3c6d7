/-
# The two modes

An exhaustive evaluation shows, for each vehicle, the position that is closest to a plan that keeps all constraints. A
hasty one leaves each position at its first violation, and shows the position where that one is the least fundamental.
Here the outcomes of the two modes are compared. They are the same wherever there is nothing to choose, or no position
violates more than one constraint; beyond that the hasty mode may show another position, but no reason that is more
fundamental.

* `Trial.compareClosest_of_single` : the orders agree on trials with one violation each
* `Attempt.compares` : the outcomes for a vehicle in the two modes
* `Evaluator.modes_compared` : the same for all vehicles, and for the reason of the job
* `Evaluator.modes_differ_van` : a job for which the reasons differ
-/
import Leftover.Proofs.Reasons
import Leftover.Proofs.Severities

namespace Leftover

variable {α : Type} [Quantity α]

/-! ## Ranks -/

theorem Reason.rank_le_length (r : Reason) : r.rank ≤ priorityOrder.length := List.idxOf_le_length

theorem Reason.ne_of_rank_lt {r s : Reason} (lt : r.rank < s.rank) : r ≠ s := by
  rintro rfl
  exact Nat.lt_irrefl _ lt

/-- The priority order split at a reason that takes part in it. -/
theorem exists_priorityOrder_eq {r : Reason} (ordered : r ∈ priorityOrder) :
    ∃ front back, priorityOrder = front ++ r :: back ∧ ∀ s ∈ front, s.rank < r.rank := by
  obtain ⟨front, back, split_eq, fresh⟩ := List.eq_append_cons_of_mem ordered
  refine ⟨front, back, split_eq, fun s member => ?_⟩
  have rank_eq : r.rank = front.length := by
    rw [Reason.rank, split_eq, List.idxOf_append_of_notMem fresh, List.idxOf_cons_self, Nat.add_zero]
  rw [rank_eq, Reason.rank, split_eq, List.idxOf_append_of_mem member]
  exact List.idxOf_lt_length_of_mem member

/-! ## Trials with one violation -/

/-- Severities on which two trials agree do not decide between them. -/
theorem compareSeverities_append {f g : Reason → Option α} {front : List Reason} (back : List Reason)
    (level : ∀ r ∈ front, compareSeverity (f r) (g r) = .eq) :
    compareSeverities ((front ++ back).map f) ((front ++ back).map g)
      = compareSeverities (back.map f) (back.map g) := by
  induction front with
  | nil => rfl
  | cons r rest ih =>
    rw [List.forall_mem_cons] at level
    rw [List.cons_append, List.map_cons, List.map_cons, compareSeverities, level.1, ih level.2]
    rfl

namespace Trial

variable {t u : Trial α} {r s : Reason} {x y : Option α}

/-- Two trials with the same severities do not differ in them. -/
theorem compareSeverities_of_level (level : ∀ c, compareSeverity (t.severityOf c) (u.severityOf c) = .eq) :
    compareSeverities t.severities u.severities = .eq := by
  have all : compareSeverities ((priorityOrder ++ []).map t.severityOf) ((priorityOrder ++ []).map u.severityOf)
      = .eq := compareSeverities_append [] fun c _ => level c
  rwa [List.append_nil] at all

/-- The most fundamental reason on which two trials differ decides between them. -/
theorem compareSeverities_of_first (ordered : r ∈ priorityOrder)
    (level : ∀ c, c.rank < r.rank → compareSeverity (t.severityOf c) (u.severityOf c) = .eq)
    (differ : compareSeverity (t.severityOf r) (u.severityOf r) ≠ .eq) :
    compareSeverities t.severities u.severities = compareSeverity (t.severityOf r) (u.severityOf r) := by
  obtain ⟨front, back, order_eq, before⟩ := exists_priorityOrder_eq ordered
  rw [severities, severities, order_eq, compareSeverities_append _ fun c member => level c (before c member),
    List.map_cons, List.map_cons, compareSeverities]
  cases decided : compareSeverity (t.severityOf r) (u.severityOf r) with
  | eq => exact absurd decided differ
  | lt | gt => rfl

theorem severityOf_self (found : t.violations = [(r, x)]) : t.severityOf r = x := by
  simp [severityOf, found]

theorem severityOf_of_ne (found : t.violations = [(r, x)]) {c : Reason} (other : c ≠ r) : t.severityOf c = some 0 := by
  simp [severityOf, found, other.symm]

section

variable (ht : t.violations = [(r, x)]) (hu : u.violations = [(s, y)]) (hr : r ∈ priorityOrder)
  (hs : s ∈ priorityOrder) (zero : compareSeverity (some (0 : α)) (some 0) = .eq)
  (hx : compareSeverity x (some 0) = .gt) (hy : compareSeverity (some 0) y = .lt)

include ht hu hr hs zero hx hy

/-- Of two trials with one violation each, that of the more fundamental reason has the larger severities; if the reasons
are the same, the violations decide. -/
theorem compareSeverities_of_single :
    compareSeverities t.severities u.severities = (compare s.rank r.rank).then (compareSeverity x y) := by
  have level : ∀ c, c ≠ r → c ≠ s → compareSeverity (t.severityOf c) (u.severityOf c) = .eq := by
    intro c hcr hcs
    rw [severityOf_of_ne ht hcr, severityOf_of_ne hu hcs, zero]
  rcases Nat.lt_trichotomy r.rank s.rank with lt | same | gt
  · have differ : compareSeverity (t.severityOf r) (u.severityOf r) = .gt := by
      rw [severityOf_self ht, severityOf_of_ne hu (Reason.ne_of_rank_lt lt), hx]
    have before : ∀ c, c.rank < r.rank → compareSeverity (t.severityOf c) (u.severityOf c) = .eq :=
      fun c lower => level c (Reason.ne_of_rank_lt lower) (Reason.ne_of_rank_lt (Nat.lt_trans lower lt))
    rw [compareSeverities_of_first hr before (by simp [differ]), differ, Nat.compare_eq_gt.mpr lt]
    rfl
  · obtain rfl : r = s := (List.idxOf_inj hr).mp same
    have tied : compareSeverity (t.severityOf r) (u.severityOf r) = compareSeverity x y := by
      rw [severityOf_self ht, severityOf_self hu]
    have before : ∀ c, c.rank < r.rank → compareSeverity (t.severityOf c) (u.severityOf c) = .eq :=
      fun c lower => level c (Reason.ne_of_rank_lt lower) (Reason.ne_of_rank_lt lower)
    rw [Nat.compare_eq_eq.mpr rfl]
    by_cases tie : compareSeverity x y = .eq
    · rw [tie]
      refine compareSeverities_of_level fun c => ?_
      by_cases other : c = r
      · rw [other, tied, tie]
      · exact level c other other
    · rw [compareSeverities_of_first hr before (tied ▸ tie), tied]
      rfl
  · have differ : compareSeverity (t.severityOf s) (u.severityOf s) = .lt := by
      rw [severityOf_self hu, severityOf_of_ne ht (Reason.ne_of_rank_lt gt), hy]
    have before : ∀ c, c.rank < s.rank → compareSeverity (t.severityOf c) (u.severityOf c) = .eq :=
      fun c lower => level c (Reason.ne_of_rank_lt (Nat.lt_trans lower gt)) (Reason.ne_of_rank_lt lower)
    rw [compareSeverities_of_first hs before (by simp [differ]), differ, Nat.compare_eq_lt.mpr gt]
    rfl

/-- Of two trials with one violation each, the closer one is the one with the lesser obstacle. -/
theorem compareClosest_of_single : compareClosest t u = compareObstacle t u := by
  have count : compare t.violations.length u.violations.length = .eq := by
    rw [ht, hu]
    rfl
  rw [compareClosest, compareObstacle, count, compareSeverities_of_single ht hu hr hs zero hx hy, ht, hu]
  rfl

end

/-! ## First obstacles -/

/-- How fundamental the first violation of a trial is: its place in the priority order counted from the end, zero
without violations. -/
def hurdle (t : Trial α) : Nat :=
  match t.violations with
  | [] => 0
  | (r, _) :: _ => priorityOrder.length + 1 - r.rank

theorem hurdle_le_of_lt (before : compareObstacle t u = .lt) : t.hurdle ≤ u.hurdle := by
  unfold compareObstacle at before
  unfold hurdle
  split at before
  · simp_all
  · simp_all
  · exact absurd before (by simp)
  · rename_i r x _ s y _ ht hu
    rw [ht, hu]
    have first : compare s.rank r.rank ≠ .gt := by
      intro after
      rw [after] at before
      exact absurd before (by simp [Ordering.then])
    rw [Ne, Nat.compare_eq_gt] at first
    simp only
    omega

theorem lt_of_hurdle_lt (lower : t.hurdle < u.hurdle) : compareObstacle t u = .lt := by
  unfold hurdle at lower
  unfold compareObstacle
  cases ht : t.violations with
  | nil =>
    cases hu : u.violations with
    | nil => simp [ht, hu] at lower
    | cons _ _ => rfl
  | cons v _ =>
    cases hu : u.violations with
    | nil => simp [hu] at lower
    | cons w _ =>
      rw [ht, hu] at lower
      have first : w.1.rank < v.1.rank := by
        have := v.1.rank_le_length
        simp only at lower
        omega
      simp only [Nat.compare_eq_lt.mpr first]
      rfl

end Trial

/-! ## A vehicle in both modes -/

variable [Plane α]

namespace Attempt

/-- Zero is level with itself, and below the severity of each violation. -/
structure IsMeasured (a : Attempt α) : Prop where
  zero_level : compareSeverity (some (0 : α)) (some 0) = .eq
  zero_lt : ∀ k r severity, a.Violates k r severity → compareSeverity (some 0) severity = .lt
  gt_zero : ∀ k r severity, a.Violates k r severity → compareSeverity severity (some 0) = .gt

/-- On a scale this holds. -/
theorem isMeasured [Scale α] (a : Attempt α) : a.IsMeasured where
  zero_level := by
    have defined : IsComparable (some (0 : α)) := fun x same => Option.some.inj same ▸ Scale.isUndefined_zero
    rw [compareSeverity_eq_eq defined defined, AsSevere, milder_some, and_self]
    exact fun lt => OrderedQuantity.lt_asymm lt lt
  zero_lt := fun _ _ _ violated => (compareSeverity_zero (Insertion.check_isGraded violated.2)).1
  gt_zero := fun _ _ _ violated => (compareSeverity_zero (Insertion.check_isGraded violated.2)).2

/-- There is little to choose from: some position is without violations, or there is at most one open position, or
each open position violates at most one constraint. -/
def IsPlain (a : Attempt α) : Prop :=
  (∃ k, a.IsOpen k ∧ a.violations k = []) ∨ (∀ j k, a.IsOpen j → a.IsOpen k → j = k)
    ∨ (a.IsMeasured ∧ ∀ k, a.IsOpen k → (a.violations k).length ≤ 1)

/-- How the outcomes of the exhaustive and the hasty mode go together: they are of the same kind, and the same wherever
there is little to choose from. The one shows as few violations as any open position has. The other shows none that is
more fundamental than what every open position violates, and so than what the first shows. -/
structure Compares (a : Attempt α) (out out' : VehicleOutcome α) : Prop where
  unreachable_eq : out.unreachable = out'.unreachable
  feasible_eq : out.feasible = out'.feasible
  eq_of_unreachable : out.unreachable = true → out = out'
  eq_of_isPlain : a.IsPlain → out = out'
  fewest : ∀ k, a.IsOpen k → out.records.length ≤ (a.violations k).length
  weakest : ∀ record' ∈ out'.records, ∀ k, a.IsOpen k →
    ∃ violation ∈ a.violations k, violation.1.rank ≤ record'.code.rank
  rank_le : ∀ record' ∈ out'.records, ∃ record ∈ out.records, record.code.rank ≤ record'.code.rank

section

variable {a : Attempt α} {first : Nat} {rest : List Nat}

/-- No trial has fewer violations than the closest one. -/
theorem length_closest_le {k : Nat} (listed : k ∈ first :: rest) :
    (firstLeast Trial.compareClosest (a.fullTrial first) (rest.map a.fullTrial)).violations.length
      ≤ (a.violations k).length := by
  have member : a.fullTrial k ∈ a.fullTrial first :: rest.map a.fullTrial := by
    rw [← List.map_cons]
    exact List.mem_map_of_mem listed
  refine firstLeast_key_le (fun t : Trial α => t.violations.length) (fun t u before => ?_) (fun t u fewer => ?_) member
  · show t.violations.length ≤ u.violations.length
    by_contra more
    rw [Trial.compareClosest, Nat.compare_eq_gt.mpr (Nat.lt_of_not_le more)] at before
    exact absurd before (by simp [Ordering.then])
  · rw [Trial.compareClosest, Nat.compare_eq_lt.mpr fewer]
    rfl

/-- Every open position violates a constraint at least as fundamental as those violated where the obstacle is least. -/
theorem exists_rank_le_weakest {k : Nat} (listed : k ∈ first :: rest) {found : Reason × Option α}
    (member : found ∈ (firstLeast Trial.compareObstacle (a.fullTrial first) (rest.map a.fullTrial)).violations) :
    ∃ violation ∈ a.violations k, violation.1.rank ≤ found.1.rank := by
  obtain ⟨j, -, same⟩ := firstLeast_map_mem Trial.compareObstacle a.fullTrial first rest
  have lowest : (a.fullTrial j).hurdle ≤ (a.fullTrial k).hurdle := by
    rw [← same]
    refine firstLeast_key_le Trial.hurdle (fun _ _ => Trial.hurdle_le_of_lt) (fun _ _ => Trial.lt_of_hurdle_lt) ?_
    rw [← List.map_cons]
    exact List.mem_map_of_mem listed
  rw [same] at member
  have ranked := a.violations_pairwise j
  -- the first violations of both trials tell their hurdles
  simp only [Trial.hurdle, fullTrial] at lowest member
  cases here : a.violations j with
  | nil => simp [here] at member
  | cons v others =>
    cases there : a.violations k with
    | nil =>
      have := v.1.rank_le_length
      simp only [here, there] at lowest
      omega
    | cons w _ =>
      refine ⟨w, by simp, ?_⟩
      rw [here, List.pairwise_cons] at ranked
      have after : v.1.rank ≤ found.1.rank := by
        rw [here] at member
        rcases List.mem_cons.mp member with rfl | member
        · exact Nat.le_refl _
        · exact Nat.le_of_lt (ranked.1 found member)
      have := w.1.rank_le_length
      simp only [here, there] at lowest
      omega

end

theorem mem_priorityOrder_of_violates {a : Attempt α} {k : Nat} {violation : Reason × Option α}
    (member : violation ∈ a.violations k) : violation.1 ∈ priorityOrder :=
  a.catalog.sublist.subset (List.mem_filter.mp (mem_violations.mp member).1).1

/-- If each open position violates just one constraint, both modes show the same. -/
theorem outcomeBy_of_single {a : Attempt α} (measured : a.IsMeasured)
    (single : ∀ k ∈ a.gate, ∃ violation, a.violations k = [violation]) :
    a.outcomeBy Trial.compareClosest = a.outcomeBy Trial.compareObstacle := by
  cases found : a.gate with
  | nil => rw [outcomeBy_of_closed found, outcomeBy_of_closed found]
  | cons first rest =>
    rw [outcomeBy_of_gate found, outcomeBy_of_gate found]
    congr 1
    apply firstLeast_congr
    rw [← List.map_cons, ← found]
    intro t tried u tried'
    obtain ⟨j, listed, rfl⟩ := List.mem_map.mp tried
    obtain ⟨k, listed', rfl⟩ := List.mem_map.mp tried'
    obtain ⟨v, here⟩ := single j listed
    obtain ⟨w, there⟩ := single k listed'
    have hv : v ∈ a.violations j := by simp [here]
    have hw : w ∈ a.violations k := by simp [there]
    have above := measured.gt_zero j _ _ (mem_violations.mp hv)
    have below := measured.zero_lt k _ _ (mem_violations.mp hw)
    exact Trial.compareClosest_of_single here there (mem_priorityOrder_of_violates hv)
      (mem_priorityOrder_of_violates hw) measured.zero_level above below

/-- If every open position violates some constraint, each mode shows the violations at one of them. -/
theorem compares_of_blocked {a : Attempt α} {first : Nat} {rest : List Nat} (found : a.gate = first :: rest)
    (blocked : ∀ k ∈ a.gate, a.violations k ≠ []) :
    a.Compares (a.outcomeBy Trial.compareClosest) (a.outcomeBy Trial.compareObstacle) := by
  obtain ⟨j, listed, closest⟩ := firstLeast_map_mem Trial.compareClosest a.fullTrial first rest
  obtain ⟨k, listed', weakest⟩ := firstLeast_map_mem Trial.compareObstacle a.fullTrial first rest
  have infeasible : ∀ k ∈ first :: rest, (a.fullTrial k).isFree = false := by
    intro k listed
    rw [← found] at listed
    simp [Trial.isFree, fullTrial, blocked k listed]
  have weakest_le : ∀ record' ∈ (a.outcomeBy Trial.compareObstacle).records, ∀ k, a.IsOpen k →
      ∃ violation ∈ a.violations k, violation.1.rank ≤ record'.code.rank := by
    intro record' member k isOpen
    rw [outcomeBy_of_gate found] at member
    obtain ⟨violation, violated, rfl⟩ := List.mem_map.mp member
    exact exists_rank_le_weakest (found ▸ mem_gate.mpr isOpen) violated
  have isOpen : ∀ k ∈ first :: rest, a.IsOpen k := fun k listed => mem_gate.mp (found ▸ listed)
  refine ⟨?_, ?_, ?_, ?_, ?_, weakest_le, ?_⟩
  · rw [outcomeBy_of_gate found, outcomeBy_of_gate found]
    rfl
  · rw [outcomeBy_of_gate found, outcomeBy_of_gate found, closest, weakest]
    exact (infeasible j listed).trans (infeasible k listed').symm
  · rw [outcomeBy_of_gate found]
    exact fun unreachable => absurd unreachable (by simp [outcomeOf])
  · rintro (⟨free, isOpen_free, none⟩ | single_position | ⟨measured, single_violation⟩)
    · exact absurd none (blocked free (mem_gate.mpr isOpen_free))
    · rw [outcomeBy_of_gate found, outcomeBy_of_gate found, closest, weakest,
        single_position j k (isOpen j listed) (isOpen k listed')]
    · refine outcomeBy_of_single measured fun k gated => ?_
      obtain ⟨violation, others, here⟩ := List.exists_cons_of_ne_nil (blocked k gated)
      have at_most_one := single_violation k (mem_gate.mp gated)
      rw [here, List.length_cons] at at_most_one
      obtain rfl : others = [] := List.length_eq_zero_iff.mp (by omega)
      exact ⟨violation, here⟩
  · intro k isOpen
    rw [outcomeBy_of_gate found, outcomeOf, Trial.records, List.length_map]
    exact length_closest_le (found ▸ mem_gate.mpr isOpen)
  · intro record' member
    obtain ⟨violation, violated, le⟩ := weakest_le record' member j (isOpen j listed)
    rw [outcomeBy_of_gate found, closest]
    exact ⟨_, List.mem_map_of_mem violated, le⟩

/-- The outcomes that the two modes show for a vehicle go together. -/
theorem compares (a : Attempt α) :
    a.Compares (a.outcomeBy (Trial.orderOf true)) (a.outcomeBy (Trial.orderOf false)) := by
  by_cases free : ∃ k ∈ a.gate, a.violations k = []
  · rw [outcomeBy_of_free true free, outcomeBy_of_free false free]
    exact ⟨rfl, rfl, fun _ => rfl, fun _ => rfl, by simp, by simp, by simp⟩
  · cases found : a.gate with
    | nil =>
      have closed : ∀ k, ¬a.IsOpen k := by
        intro k isOpen
        have listed := mem_gate.mpr isOpen
        rw [found] at listed
        exact absurd listed (by simp)
      rw [outcomeBy_of_closed found, outcomeBy_of_closed found]
      exact ⟨rfl, rfl, fun _ => rfl, fun _ => rfl, fun k isOpen => absurd isOpen (closed k),
        fun _ _ k isOpen => absurd isOpen (closed k), fun record member => ⟨record, member, Nat.le_refl _⟩⟩
    | cons first rest => exact compares_of_blocked found fun k listed none => free ⟨k, listed, none⟩

end Attempt

/-! ## A job in both modes -/

namespace Evaluator

/-- Either both modes give some routes their outcomes; or areas cannot be judged for some of them, and the same fault
stops both modes. -/
theorem evaluateFrom_inMode (e : Evaluator α) (job : Job α) (states : List (RouteState α)) (k : Nat) :
    ((∃ state ∈ states, ¬(e.attempt job state).JudgesAreas) ∧ ∃ fault, ∀ exhaustive,
        ((e.inMode exhaustive).evaluateFrom (fun _ => false) job k states).outcome = .error fault)
      ∨ ∀ exhaustive, ((e.inMode exhaustive).evaluateFrom (fun _ => false) job k states).outcome
        = .ok (states.map fun state => (e.attempt job state).outcomeBy (Trial.orderOf exhaustive)) := by
  induction states generalizing k with
  | nil => exact Or.inr fun _ => rfl
  | cons state rest ih =>
    -- the first route is surveyed, and then, unless that is stopped, the rest are
    have stepped : ∀ exhaustive, ((e.inMode exhaustive).evaluateFrom (fun _ => false) job k (state :: rest)).outcome
        = (survey { e.attempt job state with exhaustive }).outcome.bind fun out =>
          (((e.inMode exhaustive).evaluateFrom (fun _ => false) job (k + 1) rest).outcome.map (out :: ·)) := by
      intro exhaustive
      simp [evaluateFrom]
      rfl
    rcases (e.attempt job state).survey_inMode with ⟨unjudged, fault, stopped⟩ | shown
    · refine Or.inl ⟨⟨state, by simp, unjudged⟩, fault, fun exhaustive => ?_⟩
      rw [stepped, stopped]
      rfl
    · rcases ih (k + 1) with ⟨⟨state', listed, unjudged⟩, fault, stopped⟩ | outcomes
      · refine Or.inl ⟨⟨state', List.mem_cons_of_mem _ listed, unjudged⟩, fault, fun exhaustive => ?_⟩
        rw [stepped, shown, stopped]
        rfl
      · refine Or.inr fun exhaustive => ?_
        rw [stepped, shown, outcomes]
        rfl

/-- Either both modes collect the outcomes for all vehicles, or the same fault stops both. -/
theorem evaluate_inMode (e : Evaluator α) (job : Job α) :
    ((∃ state ∈ e.states, ¬(e.attempt job state).JudgesAreas) ∧ ∃ fault, ∀ exhaustive,
        ((e.inMode exhaustive).evaluate (fun _ => false) job).outcome = .error fault)
      ∨ ∀ exhaustive, ((e.inMode exhaustive).evaluate (fun _ => false) job).outcome
        = .ok ((e.inMode exhaustive).collect job ((e.inMode exhaustive).outcomes job)) := by
  rcases e.evaluateFrom_inMode job e.states 0 with ⟨unjudged, fault, stopped⟩ | outcomes
  · refine Or.inl ⟨unjudged, fault, fun exhaustive => ?_⟩
    rw [evaluate, Observed.outcome_bind]
    exact congrArg (· >>= _) (stopped exhaustive)
  · refine Or.inr fun exhaustive => ?_
    rw [evaluate, Observed.outcome_bind]
    exact congrArg (· >>= _) (outcomes exhaustive)

omit [Plane α] in
/-- Which reason is shown for given outcomes does not depend on the mode. -/
theorem Shows.of_inMode {e : Evaluator α} {exhaustive : Bool} {jobId : Text} {outcomes : List (VehicleOutcome α)}
    {shown : Resolution α} (shows : (e.inMode exhaustive).Shows jobId outcomes shown) : e.Shows jobId outcomes shown :=
  ⟨shows.unexplained_iff, shows.of_unreachable, shows.isFirstOf, shows.description_eq⟩

/-- Whether no vehicle reaches the job is the same in both modes. -/
theorem outcomes_unreachable (e : Evaluator α) (job : Job α) :
    ((e.inMode true).outcomes job ≠ [] ∧ ∀ out ∈ (e.inMode true).outcomes job, out.unreachable = true)
      ↔ ((e.inMode false).outcomes job ≠ [] ∧ ∀ out ∈ (e.inMode false).outcomes job, out.unreachable = true) := by
  simp only [outcomes, List.forall_mem_map, ne_eq, List.map_eq_nil_iff]
  refine and_congr_right fun _ => forall₂_congr fun state _ => ?_
  exact Bool.eq_iff_iff.mp (e.attempt job state).compares.unreachable_eq

/-- Whether every vehicle could take the job is the same in both modes. -/
theorem outcomes_feasible (e : Evaluator α) (job : Job α) :
    (∀ out ∈ (e.inMode true).outcomes job, out.feasible = true)
      ↔ ∀ out ∈ (e.inMode false).outcomes job, out.feasible = true := by
  simp only [outcomes, List.forall_mem_map]
  refine forall₂_congr fun state _ => ?_
  exact Bool.eq_iff_iff.mp (e.attempt job state).compares.feasible_eq

/-- For each obstacle of the hasty mode the exhaustive one has an obstacle that is no less fundamental. -/
theorem exists_obstacle_rank_le {e : Evaluator α} {job : Job α} {c : Reason}
    (member : c ∈ e.obstacles job.id ((e.inMode false).outcomes job)) :
    ∃ d ∈ e.obstacles job.id ((e.inMode true).outcomes job), d.rank ≤ c.rank := by
  rcases List.mem_append.mp member with member | hinted
  · obtain ⟨record', found, rfl⟩ := List.mem_map.mp member
    obtain ⟨out', listed, found⟩ := List.mem_flatMap.mp found
    obtain ⟨state, of_fleet, rfl⟩ := List.mem_map.mp listed
    obtain ⟨record, found, le⟩ := (e.attempt job state).compares.rank_le record' found
    refine ⟨record.code, List.mem_append_left _ (List.mem_map_of_mem ?_), le⟩
    exact List.mem_flatMap.mpr ⟨_, List.mem_map_of_mem of_fleet, found⟩
  · exact ⟨c, List.mem_append_right _ hinted, Nat.le_refl _⟩

/-- The reasons that are shown in the two modes: there is none in both or in neither, and that of the hasty mode is not
more fundamental. -/
theorem Shows.rank_le {e : Evaluator α} {job : Job α} {shown shown' : Resolution α}
    (shows : e.Shows job.id ((e.inMode true).outcomes job) shown)
    (shows' : e.Shows job.id ((e.inMode false).outcomes job) shown') :
    (shown.code = .unexplained ↔ shown'.code = .unexplained) ∧ shown.code.rank ≤ shown'.code.rank := by
  have unexplained : shown.code = .unexplained ↔ shown'.code = .unexplained := by
    rw [shows.unexplained_iff, shows'.unexplained_iff, obstacles_eq_nil fun _ => agrees_of_mem_outcomes,
      obstacles_eq_nil fun _ => agrees_of_mem_outcomes, outcomes_feasible]
  refine ⟨unexplained, ?_⟩
  by_cases none : shown.code = .unexplained
  · rw [none, unexplained.mp none]
  · have some_obstacle := mt shows.unexplained_iff.mpr none
    have some_obstacle' := mt shows'.unexplained_iff.mpr (mt unexplained.mpr none)
    by_cases all : (e.inMode true).outcomes job ≠ [] ∧ ∀ out ∈ (e.inMode true).outcomes job, out.unreachable = true
    · have all' := (e.outcomes_unreachable job).mp all
      rw [shows.of_unreachable all.1 all.2, shows'.of_unreachable all'.1 all'.2]
    · have first := shows.isFirstOf some_obstacle all
      have first' := shows'.isFirstOf some_obstacle' (mt (e.outcomes_unreachable job).mpr all)
      obtain ⟨d, present, le⟩ := exists_obstacle_rank_le first'.1
      exact Nat.le_trans (first.2 d present) le

/-- If for all vehicles there is little to choose from, both modes find the same. -/
theorem outcomes_of_isPlain {e : Evaluator α} {job : Job α}
    (plain : ∀ state ∈ e.states, (e.attempt job state).IsPlain) :
    (e.inMode true).outcomes job = (e.inMode false).outcomes job :=
  List.map_congr_left fun state listed => (e.attempt job state).compares.eq_of_isPlain (plain state listed)

/-- Let all settings but the mode be the same. Then for every vehicle the outcomes of the two modes go together; and
some reason is shown in both. There is no reason in both or in neither; that of the hasty mode is never more
fundamental; and what is shown is the same if for each vehicle there is little to choose from. Only where areas cannot
be judged there may be no outcome, and no reason; then the same fault stops both modes. -/
theorem modes_compared (e : Evaluator α) (job : Job α) (policy : TieBreak) (order : List Text) :
    (∀ state ∈ e.states,
      (¬(e.attempt job state).JudgesAreas ∧ ∃ fault, ∀ exhaustive,
          ((e.inMode exhaustive).evaluateVehicle job state).outcome = .error fault)
        ∨ ∃ out out', ((e.inMode true).evaluateVehicle job state).outcome = .ok out
          ∧ ((e.inMode false).evaluateVehicle job state).outcome = .ok out'
          ∧ (e.attempt job state).Compares out out')
      ∧ (((∃ state ∈ e.states, ¬(e.attempt job state).JudgesAreas) ∧ ∃ fault, ∀ exhaustive,
          ((e.inMode exhaustive).evaluate (fun _ => false) job).outcome = .error fault)
        ∨ ∃ evaluation evaluation' shown shown',
          ((e.inMode true).evaluate (fun _ => false) job).outcome = .ok evaluation
          ∧ ((e.inMode false).evaluate (fun _ => false) job).outcome = .ok evaluation'
          ∧ resolve policy order evaluation = .ok shown ∧ resolve policy order evaluation' = .ok shown'
          ∧ (shown.code = .unexplained ↔ shown'.code = .unexplained) ∧ shown.code.rank ≤ shown'.code.rank
          ∧ ((∀ state ∈ e.states, (e.attempt job state).IsPlain) → shown = shown')) := by
  constructor
  · intro state _
    rcases (e.attempt job state).survey_inMode with stopped | shown
    · exact Or.inl stopped
    · exact Or.inr ⟨_, _, shown true, shown false, (e.attempt job state).compares⟩
  · rcases e.evaluate_inMode job with stopped | collected
    · exact Or.inl stopped
    · right
      obtain ⟨shown, resolved, shows⟩ :=
        resolve_collect (e.inMode true) job (fun _ => agrees_of_mem_outcomes) policy order
      obtain ⟨shown', resolved', shows'⟩ :=
        resolve_collect (e.inMode false) job (fun _ => agrees_of_mem_outcomes) policy order
      have ranked := Shows.rank_le shows.of_inMode shows'.of_inMode
      refine ⟨_, _, shown, shown', collected true, collected false, resolved, resolved', ranked.1, ranked.2,
        fun plain => ?_⟩
      rw [outcomes_of_isPlain plain] at resolved
      exact Except.ok.inj (resolved.symm.trans resolved')

/-- The lift can be reached before the delivery of the crate and after it. -/
theorem gate_lift (exhaustive : Bool) : ((vanEvaluator.inMode exhaustive).attempt lift vanRoute).gate = [0, 1] := by
  cases exhaustive <;> decide +kernel

/-- Before the delivery the lift is too much for the van to carry, after it the order is wrong in two ways. The
exhaustive mode shows the position with one violation, the hasty one that with the two less fundamental ones; and so the
reasons differ. -/
theorem modes_differ_van :
    (Evaluator.build vanPlan vanSolution (.without []) {}).outcome = .ok vanEvaluator
      ∧ ((vanEvaluator.inMode true).evaluateVehicle lift vanRoute).outcome
        = .ok ⟨"van", [⟨.capacity, .violated (some (.finite 4)), some "van", some 0⟩], false, false⟩
      ∧ ((vanEvaluator.inMode false).evaluateVehicle lift vanRoute).outcome
        = .ok ⟨"van", [⟨.locking, .violated none, some "van", some 1⟩,
            ⟨.priority, .violated (some (.finite 1)), some "van", some 1⟩], false, false⟩
      ∧ ((vanEvaluator.inMode true).builder.resolution (fun _ => false) lift).outcome.map (·.code) = .ok .capacity
      ∧ ((vanEvaluator.inMode false).builder.resolution (fun _ => false) lift).outcome.map (·.code) = .ok .locking :=
  ⟨build_vanEvaluator, by decide +kernel⟩

theorem isPlain_crate : ∀ state ∈ vanEvaluator.states, (vanEvaluator.attempt crate state).IsPlain := by
  intro state listed
  obtain rfl := List.mem_singleton.mp listed
  have single : ∀ k ∈ (vanEvaluator.attempt crate vanRoute).gate,
      ((vanEvaluator.attempt crate vanRoute).violations k).length ≤ 1 := by decide +kernel
  exact Or.inr (Or.inr ⟨Attempt.isMeasured _, fun k isOpen => single k (Attempt.mem_gate.mpr isOpen)⟩)

theorem modes_compared_van :
    (∃ evaluation evaluation' shown shown',
        ((vanEvaluator.inMode true).evaluate (fun _ => false) lift).outcome = .ok evaluation
        ∧ ((vanEvaluator.inMode false).evaluate (fun _ => false) lift).outcome = .ok evaluation'
        ∧ resolve .nearestMiss ["van"] evaluation = .ok shown ∧ resolve .nearestMiss ["van"] evaluation' = .ok shown'
        ∧ shown.code.rank ≤ shown'.code.rank)
      ∧ (∀ state ∈ vanEvaluator.states, (vanEvaluator.attempt crate state).IsPlain)
      ∧ ∃ evaluation evaluation' shown,
        ((vanEvaluator.inMode true).evaluate (fun _ => false) crate).outcome = .ok evaluation
        ∧ ((vanEvaluator.inMode false).evaluate (fun _ => false) crate).outcome = .ok evaluation'
        ∧ resolve .nearestMiss ["van"] evaluation = .ok shown
        ∧ resolve .nearestMiss ["van"] evaluation' = .ok shown := by
  have judged (job : Job Exact) : ¬∃ state ∈ vanEvaluator.states, ¬(vanEvaluator.attempt job state).JudgesAreas := by
    rintro ⟨state, listed, unjudged⟩
    exact unjudged (judgesAreas_van job state listed)
  refine ⟨?_, isPlain_crate, ?_⟩
  · obtain ⟨evaluation, evaluation', shown, shown', evaluated, evaluated', resolved, resolved', -, le, -⟩ :=
      (modes_compared vanEvaluator lift .nearestMiss ["van"]).2.resolve_left fun stopped => judged lift stopped.1
    exact ⟨evaluation, evaluation', shown, shown', evaluated, evaluated', resolved, resolved', le⟩
  · obtain ⟨evaluation, evaluation', shown, shown', evaluated, evaluated', resolved, resolved', -, -, same⟩ :=
      (modes_compared vanEvaluator crate .nearestMiss ["van"]).2.resolve_left fun stopped => judged crate stopped.1
    obtain rfl := same isPlain_crate
    exact ⟨evaluation, evaluation', shown, evaluated, evaluated', resolved, resolved'⟩

end Evaluator

end Leftover
