/-
# The closest position

In the exhaustive mode a vehicle is shown at the open position with the fewest violations; among those at the one where
the violations are the mildest, the first constraint that does not fare alike deciding; and among those at the first one.
What fares alike at two positions is told by the checks themselves. This puts the positions one after the other, without
ties, so there is just one such position.

* `Attempt.Lighter` : a constraint stands in the way less at a position than at another
* `Attempt.Closer` : a position is closer than another to keeping all constraints
* `Trial.compareSeverities_eq_lt` : the comparison of severities, as a first difference
* `Attempt.compareClosest_fullTrial` : the order of trials is that of positions
* `Evaluator.shows_closest` : the position that is shown
-/
import Leftover.Proofs.Modes
import Leftover.Proofs.Records
import Mathlib.Order.WellFounded

namespace Leftover

variable {α : Type} [Quantity α] [Plane α]

/-! ## Positions one after the other -/

namespace Attempt

/-- A constraint stands in the way less at a position than at another: it is violated at the other one only, or at both
and milder at this one. -/
inductive Lighter (a : Attempt α) (j k : Nat) (r : Reason) : Prop
  | kept {y : Option α} (here : ∀ x, ¬a.Violates j r x) (there : a.Violates k r y) : Lighter a j k r
  | violated {x y : Option α} (here : a.Violates j r x) (there : a.Violates k r y) (milder : Milder x y) : Lighter a j k r

/-- A constraint stands in the way alike at two positions. -/
def Level (a : Attempt α) (j k : Nat) (r : Reason) : Prop := ¬a.Lighter j k r ∧ ¬a.Lighter k j r

/-- The first constraint in priority order that does not stand in the way alike at two positions does so less at the one. -/
def LighterFirst (a : Attempt α) (j k : Nat) : Prop :=
  ∃ r, a.Lighter j k r ∧ ∀ c, c.rank < r.rank → a.Level j k c

/-- A position is closer than another to keeping all constraints: fewer of them are violated; or as many, and the first
that does not stand in the way alike does so less; or all do so alike, and the position is the earlier one. -/
inductive Closer (a : Attempt α) (j k : Nat) : Prop
  | fewer (count : (a.violations j).length < (a.violations k).length) : Closer a j k
  | lighter (count : (a.violations j).length = (a.violations k).length) (first : a.LighterFirst j k) : Closer a j k
  | earlier (count : (a.violations j).length = (a.violations k).length) (level : ∀ c, a.Level j k c)
      (before : j < k) : Closer a j k

/-- The open position that is closer than all others. -/
def IsClosest (a : Attempt α) (k : Nat) : Prop := a.IsOpen k ∧ ∀ j, a.IsOpen j → j ≠ k → a.Closer k j

end Attempt

/-- If something holds of a reason, then there is a first one that it holds of. -/
theorem Reason.exists_first {P : Reason → Prop} (h : ∃ r, P r) : ∃ r, P r ∧ ∀ c, c.rank < r.rank → ¬P c := by
  obtain ⟨r, holds, least⟩ := (measure Reason.rank).wf.has_min {r | P r} h
  exact ⟨r, holds, fun c lower other => least c other lower⟩

/-! ## What stands in the way -/

namespace Attempt

variable {a : Attempt α} {i j k : Nat} {r : Reason} {x y : Option α}

theorem Violates.unique (here : a.Violates k r x) (here' : a.Violates k r y) : x = y := by
  have same := here.2.symm.trans here'.2
  simpa using same

/-- The severity of a violation in the trial at its position. -/
theorem severityOf_of_violates (here : a.Violates k r x) : (a.fullTrial k).severityOf r = x := by
  have distinct : ((a.violations k).map (·.1)).Nodup := by
    rw [List.Nodup, List.pairwise_map]
    exact (a.violations_pairwise k).imp Reason.ne_of_rank_lt
  have found : (a.violations k).find? (·.1 = r) = some (r, x) := find?_key_eq_some distinct (mem_violations.mpr here)
  rw [Trial.severityOf, fullTrial, found]

/-- The severity of a constraint that is kept in a trial is zero. -/
theorem severityOf_of_kept (here : ∀ x, ¬a.Violates k r x) : (a.fullTrial k).severityOf r = some 0 := by
  have none : (a.violations k).find? (·.1 = r) = none := by
    rw [List.find?_eq_none]
    rintro ⟨s, x⟩ member same
    obtain rfl : s = r := by simpa using same
    exact here x (mem_violations.mp member)
  rw [Trial.severityOf, fullTrial, none]

theorem Level.symm (level : a.Level j k r) : a.Level k j r := ⟨level.2, level.1⟩

theorem Lighter.mem_priorityOrder (lighter : a.Lighter j k r) : r ∈ priorityOrder := by
  obtain ⟨y, there⟩ : ∃ y, a.Violates k r y := by
    cases lighter with
    | kept _ there | violated _ there _ => exact ⟨_, there⟩
  exact mem_priorityOrder_of_violates (mem_violations.mpr there)

/-- Two positions are level throughout, or there is a first difference between them. -/
theorem level_or_lighterFirst (a : Attempt α) (j k : Nat) :
    (∀ c, a.Level j k c) ∨ a.LighterFirst j k ∨ a.LighterFirst k j := by
  by_cases level : ∀ c, a.Level j k c
  · exact Or.inl level
  · obtain ⟨r, differ, before⟩ := Reason.exists_first (not_forall.mp level)
    have before : ∀ c, c.rank < r.rank → a.Level j k c := fun c lower => not_not.mp (before c lower)
    refine Or.inr ?_
    by_cases lighter : a.Lighter j k r
    · exact Or.inl ⟨r, lighter, before⟩
    · have lighter' : a.Lighter k j r := by
        by_contra not_lighter'
        exact differ ⟨lighter, not_lighter'⟩
      exact Or.inr ⟨r, lighter', fun c lower => (before c lower).symm⟩

/-- Of two positions one is closer: there are no ties. -/
theorem closer_or_closer (a : Attempt α) (differ : j ≠ k) : a.Closer j k ∨ a.Closer k j := by
  rcases Nat.lt_trichotomy (a.violations j).length (a.violations k).length with fewer | count | more
  · exact Or.inl (.fewer fewer)
  · rcases a.level_or_lighterFirst j k with level | first | first
    · rcases Nat.lt_or_gt_of_ne differ with before | after
      · exact Or.inl (.earlier count level before)
      · exact Or.inr (.earlier count.symm (fun c => (level c).symm) after)
    · exact Or.inl (.lighter count first)
    · exact Or.inr (.lighter count.symm first)
  · exact Or.inr (.fewer more)

variable [Scale α]

theorem Violates.isComparable (here : a.Violates k r x) : IsComparable x :=
  (Insertion.check_isGraded here.2).isComparable

theorem isComparable_severityOf (a : Attempt α) (k : Nat) (r : Reason) : IsComparable ((a.fullTrial k).severityOf r) := by
  by_cases here : ∃ x, a.Violates k r x
  · obtain ⟨x, here⟩ := here
    rw [severityOf_of_violates here]
    exact here.isComparable
  · rw [severityOf_of_kept (not_exists.mp here)]
    exact fun x same => Option.some.inj same ▸ Scale.isUndefined_zero

/-- A constraint stands in the way less where its severity is milder. -/
theorem milder_severityOf : Milder ((a.fullTrial j).severityOf r) ((a.fullTrial k).severityOf r) ↔ a.Lighter j k r := by
  have zero_milder {k : Nat} {y : Option α} (there : a.Violates k r y) : Milder (some 0) y :=
    compareSeverity_eq_lt.mp (compareSeverity_zero (Insertion.check_isGraded there.2)).1
  constructor
  · intro milder
    by_cases here : ∃ x, a.Violates j r x
    · obtain ⟨x, here⟩ := here
      rw [severityOf_of_violates here] at milder
      by_cases there : ∃ y, a.Violates k r y
      · obtain ⟨y, there⟩ := there
        rw [severityOf_of_violates there] at milder
        exact .violated here there milder
      · rw [severityOf_of_kept (not_exists.mp there)] at milder
        exact absurd milder (zero_milder here).asymm
    · rw [severityOf_of_kept (not_exists.mp here)] at milder
      by_cases there : ∃ y, a.Violates k r y
      · obtain ⟨y, there⟩ := there
        exact .kept (not_exists.mp here) there
      · rw [severityOf_of_kept (not_exists.mp there)] at milder
        exact absurd milder fun milder => milder.asymm milder
  · intro lighter
    cases lighter with
    | kept here there =>
      rw [severityOf_of_kept here, severityOf_of_violates there]
      exact zero_milder there
    | violated here there milder =>
      rw [severityOf_of_violates here, severityOf_of_violates there]
      exact milder

theorem compare_severityOf_eq_lt :
    compareSeverity ((a.fullTrial j).severityOf r) ((a.fullTrial k).severityOf r) = .lt ↔ a.Lighter j k r := by
  rw [compareSeverity_eq_lt, milder_severityOf]

theorem compare_severityOf_eq_eq :
    compareSeverity ((a.fullTrial j).severityOf r) ((a.fullTrial k).severityOf r) = .eq ↔ a.Level j k r := by
  rw [compareSeverity_eq_eq (a.isComparable_severityOf j r) (a.isComparable_severityOf k r), AsSevere,
    milder_severityOf, milder_severityOf, Level]

theorem Lighter.asymm (lighter : a.Lighter j k r) : ¬a.Lighter k j r := by
  rw [← milder_severityOf] at lighter ⊢
  exact lighter.asymm

theorem compare_severityOf_eq_gt :
    compareSeverity ((a.fullTrial j).severityOf r) ((a.fullTrial k).severityOf r) = .gt ↔ a.Lighter k j r := by
  rw [compareSeverity_eq_gt (a.isComparable_severityOf j r) (a.isComparable_severityOf k r), milder_severityOf]

theorem Lighter.trans (ij : a.Lighter i j r) (jk : a.Lighter j k r) : a.Lighter i k r := by
  rw [← milder_severityOf] at ij jk ⊢
  exact ij.trans jk

theorem Lighter.trans_level (ij : a.Lighter i j r) (jk : a.Level j k r) : a.Lighter i k r := by
  have not_milder := mt milder_severityOf.mp jk.2
  rw [← milder_severityOf] at ij ⊢
  exact ij.trans_not (a.isComparable_severityOf i r) (a.isComparable_severityOf j r) (a.isComparable_severityOf k r) not_milder

theorem Level.trans_lighter (ij : a.Level i j r) (jk : a.Lighter j k r) : a.Lighter i k r := by
  have not_milder := mt milder_severityOf.mp ij.2
  rw [← milder_severityOf] at jk ⊢
  exact jk.not_trans (a.isComparable_severityOf i r) (a.isComparable_severityOf j r) (a.isComparable_severityOf k r) not_milder

theorem Level.trans (ij : a.Level i j r) (jk : a.Level j k r) : a.Level i k r :=
  ⟨fun ik => ij.1 (ik.trans_level jk.symm), fun ki => jk.2 (ki.trans_level ij)⟩

/-! ## First differences -/

theorem LighterFirst.trans (ij : a.LighterFirst i j) (jk : a.LighterFirst j k) : a.LighterFirst i k := by
  obtain ⟨r, lighter, level⟩ := ij
  obtain ⟨s, lighter', level'⟩ := jk
  rcases Nat.lt_trichotomy r.rank s.rank with lower | same | higher
  · exact ⟨r, lighter.trans_level (level' r lower),
      fun c below => (level c below).trans (level' c (Nat.lt_trans below lower))⟩
  · obtain rfl : r = s := Reason.eq_of_rank_eq same
    exact ⟨r, lighter.trans lighter', fun c below => (level c below).trans (level' c below)⟩
  · exact ⟨s, (level s higher).trans_lighter lighter',
      fun c below => (level c (Nat.lt_trans below higher)).trans (level' c below)⟩

theorem LighterFirst.trans_level (ij : a.LighterFirst i j) (jk : ∀ c, a.Level j k c) : a.LighterFirst i k := by
  obtain ⟨r, lighter, level⟩ := ij
  exact ⟨r, lighter.trans_level (jk r), fun c below => (level c below).trans (jk c)⟩

theorem LighterFirst.level_trans (ij : ∀ c, a.Level i j c) (jk : a.LighterFirst j k) : a.LighterFirst i k := by
  obtain ⟨r, lighter, level⟩ := jk
  exact ⟨r, (ij r).trans_lighter lighter, fun c below => (ij c).trans (level c below)⟩

/-- A position that is closer than a second one, which is closer than a third one, is closer than the third one. -/
theorem Closer.trans (ij : a.Closer i j) (jk : a.Closer j k) : a.Closer i k := by
  cases ij with
  | fewer count =>
    cases jk with
    | fewer count' | lighter count' first' | earlier count' level' before' => exact .fewer (by omega)
  | lighter count first =>
    cases jk with
    | fewer count' => exact .fewer (by omega)
    | lighter count' first' => exact .lighter (by omega) (first.trans first')
    | earlier count' level' before' => exact .lighter (by omega) (first.trans_level level')
  | earlier count level before =>
    cases jk with
    | fewer count' => exact .fewer (by omega)
    | lighter count' first' => exact .lighter (by omega) (first'.level_trans level)
    | earlier count' level' before' => exact .earlier (by omega) (fun c => (level c).trans (level' c)) (by omega)

theorem not_closer_self (a : Attempt α) (k : Nat) : ¬a.Closer k k := by
  intro closer
  cases closer with
  | fewer count => exact Nat.lt_irrefl _ count
  | lighter count first =>
    obtain ⟨r, lighter, -⟩ := first
    exact lighter.asymm lighter
  | earlier count level before => exact Nat.lt_irrefl _ before

/-! ## The order of trials -/

theorem compareSeverities_eq_eq_of_level (level : ∀ c, a.Level j k c) :
    compareSeverities (a.fullTrial j).severities (a.fullTrial k).severities = .eq :=
  Trial.compareSeverities_of_level fun c => compare_severityOf_eq_eq.mpr (level c)

theorem compareSeverities_eq_lt_of_first (first : a.LighterFirst j k) :
    compareSeverities (a.fullTrial j).severities (a.fullTrial k).severities = .lt := by
  obtain ⟨r, lighter, level⟩ := first
  have less := compare_severityOf_eq_lt.mpr lighter
  rw [Trial.compareSeverities_of_first lighter.mem_priorityOrder
    (fun c below => compare_severityOf_eq_eq.mpr (level c below)) (by simp [less]), less]

theorem compareSeverities_eq_gt_of_first (first : a.LighterFirst k j) :
    compareSeverities (a.fullTrial j).severities (a.fullTrial k).severities = .gt := by
  obtain ⟨r, lighter, level⟩ := first
  have more := compare_severityOf_eq_gt.mpr lighter
  rw [Trial.compareSeverities_of_first lighter.mem_priorityOrder
    (fun c below => compare_severityOf_eq_eq.mpr (level c below).symm) (by simp [more]), more]

theorem compareSeverities_fullTrial :
    (compareSeverities (a.fullTrial j).severities (a.fullTrial k).severities = .lt ↔ a.LighterFirst j k)
      ∧ (compareSeverities (a.fullTrial j).severities (a.fullTrial k).severities = .eq ↔ ∀ c, a.Level j k c) := by
  rcases a.level_or_lighterFirst j k with level | first | first
  · rw [compareSeverities_eq_eq_of_level level]
    refine ⟨iff_of_false (by simp) ?_, iff_of_true rfl level⟩
    rintro ⟨r, lighter, -⟩
    exact (level r).1 lighter
  · rw [compareSeverities_eq_lt_of_first first]
    refine ⟨iff_of_true rfl first, iff_of_false (by simp) fun level => ?_⟩
    obtain ⟨r, lighter, -⟩ := first
    exact (level r).1 lighter
  · rw [compareSeverities_eq_gt_of_first first]
    refine ⟨iff_of_false (by simp) fun first' => ?_, iff_of_false (by simp) fun level => ?_⟩
    · obtain ⟨r, lighter, -⟩ := first.trans first'
      exact lighter.asymm lighter
    · obtain ⟨r, lighter, -⟩ := first
      exact (level r).2 lighter

instance (a : Attempt α) : IsStrictTotalOrder Nat a.Closer where
  trichotomous j k not_before not_after := by
    by_contra differ
    exact (a.closer_or_closer differ).elim not_before not_after
  irrefl := a.not_closer_self
  trans _ _ _ := Closer.trans

/-- The closest trial is that of the closest position. -/
theorem compareClosest_fullTrial : Trial.compareClosest (a.fullTrial j) (a.fullTrial k) = .lt ↔ a.Closer j k := by
  rw [Trial.compareClosest, Ordering.then_eq_lt, Ordering.then_eq_lt, Ordering.then_eq_eq, Nat.compare_eq_lt,
    Nat.compare_eq_eq, Nat.compare_eq_lt, compareSeverities_fullTrial.1, compareSeverities_fullTrial.2]
  constructor
  · rintro ((count | ⟨count, first⟩) | ⟨⟨count, level⟩, before⟩)
    · exact .fewer count
    · exact .lighter count first
    · exact .earlier count level before
  · intro closer
    cases closer with
    | fewer count => exact Or.inl (Or.inl count)
    | lighter count first => exact Or.inl (Or.inr ⟨count, first⟩)
    | earlier count level before => exact Or.inr ⟨⟨count, level⟩, before⟩

end Attempt

namespace Evaluator

/-- In the exhaustive mode, whatever is checked and whatever the job and the route, once some position is open the
evaluation of the vehicle is not stopped but by areas that cannot be judged. The open positions stand one after the
other, without ties, so that just one of them is the closest; and what is shown is the violations at this one. -/
theorem shows_closest [Scale α] (e : Evaluator α) (job : Job α) (state : RouteState α)
    (exhaustive : e.settings.exhaustive = true) (gated : ∃ k, (e.attempt job state).IsOpen k) :
    ((∃ out, (e.evaluateVehicle job state).outcome = .ok out) ↔ (e.attempt job state).JudgesAreas)
      ∧ IsStrictTotalOrder Nat (e.attempt job state).Closer
      ∧ (∃! k, (e.attempt job state).IsClosest k)
      ∧ ∀ k, (e.attempt job state).IsClosest k → ∀ out, (e.evaluateVehicle job state).outcome = .ok out →
        out.unreachable = false ∧ (e.attempt job state).Records k out.records := by
  have mode : (e.attempt job state).exhaustive = true := exhaustive
  obtain ⟨k, closest, unique, chosen⟩ := Attempt.exists_outcomeBy gated
    (fun _ _ _ _ => Attempt.compareClosest_fullTrial) (Attempt.not_closer_self _) (fun _ _ _ => Attempt.Closer.trans)
    fun _ _ _ _ => Attempt.closer_or_closer _
  refine ⟨Attempt.exists_survey_iff_judgesAreas gated, inferInstance, ⟨k, closest, unique⟩, ?_⟩
  intro j closest' out ok
  obtain rfl : j = k := unique j closest'
  have shown := Attempt.survey_eq_ok ok
  rw [mode] at shown
  rw [shown.trans chosen]
  exact ⟨rfl, Attempt.records_fullTrial _ j⟩

/-- Before the delivery the lift violates one constraint, after it two. -/
theorem isClosest_lift : ((vanEvaluator.inMode true).attempt lift vanRoute).IsClosest 0 := by
  have listed : 0 ∈ ((vanEvaluator.inMode true).attempt lift vanRoute).gate := by
    rw [gate_lift]
    simp
  refine ⟨Attempt.mem_gate.mp listed, fun j isOpen differ => ?_⟩
  have listed' := Attempt.mem_gate.mpr isOpen
  rw [gate_lift] at listed'
  obtain rfl : j = 1 := by simp at listed'; omega
  exact .fewer (by decide +kernel)

theorem shows_closest_van :
    (vanEvaluator.inMode true).settings.exhaustive = true
      ∧ (∃ k, ((vanEvaluator.inMode true).attempt lift vanRoute).IsOpen k)
      ∧ ∀ out, ((vanEvaluator.inMode true).evaluateVehicle lift vanRoute).outcome = .ok out →
        out.unreachable = false ∧ ((vanEvaluator.inMode true).attempt lift vanRoute).Records 0 out.records := by
  have gated : ∃ k, ((vanEvaluator.inMode true).attempt lift vanRoute).IsOpen k := ⟨0, isClosest_lift.1⟩
  refine ⟨rfl, gated, ?_⟩
  obtain ⟨-, -, -, shows⟩ := (vanEvaluator.inMode true).shows_closest lift vanRoute rfl gated
  exact shows 0 isClosest_lift

end Evaluator

end Leftover
