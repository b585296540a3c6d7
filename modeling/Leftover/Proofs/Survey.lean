/-
# What a survey finds

A survey asks some constraints only once for a whole route, and may leave a position at its first violation. Here it
is compared with the plain way: every constraint asked at every position that paths lead to and on from.

* `Attempt.violations` : the plain way at one position
* `Attempt.shown_of_exhaustive`, `Attempt.shown_of_hasty`, `Attempt.shown_of_free` : the trial that is shown
* `Attempt.survey_outcome` : both modes show the first of the full trials, by an order of their own
* `Attempt.survey_inMode` : where areas cannot be judged, both modes are stopped, or neither
* `Evaluator.evaluateVehicle_agrees` : what a survey finds is what the plain way finds at one of the open positions
-/
import Leftover.Diagnosis.Evaluator
import Leftover.Plan.Polygon
import Leftover.Proofs.Choice
import Leftover.Proofs.Faults

namespace Leftover

variable {α : Type} [Quantity α]

/-! ## Trials without violations come first -/

namespace Trial

theorem compareClosest_of_free {t u : Trial α} (free : t.violations = []) (blamed : u.violations ≠ []) :
    compareClosest t u = .lt := by
  obtain ⟨x, xs, found⟩ := List.exists_cons_of_ne_nil blamed
  have fewer : compare t.violations.length u.violations.length = .lt := by
    rw [free, found, Nat.compare_eq_lt]
    exact Nat.succ_pos _
  rw [compareClosest, fewer]
  rfl

theorem compareClosest_of_blamed {t u : Trial α} (blamed : t.violations ≠ []) (free : u.violations = []) :
    compareClosest t u ≠ .lt := by
  obtain ⟨x, xs, found⟩ := List.exists_cons_of_ne_nil blamed
  have more : compare t.violations.length u.violations.length = .gt := by
    rw [free, found, Nat.compare_eq_gt]
    exact Nat.succ_pos _
  rw [compareClosest, more]
  simp

theorem compareObstacle_of_free {t u : Trial α} (free : t.violations = []) (blamed : u.violations ≠ []) :
    compareObstacle t u = .lt := by
  obtain ⟨x, xs, found⟩ := List.exists_cons_of_ne_nil blamed
  rw [compareObstacle, free, found]

theorem compareObstacle_of_blamed {t u : Trial α} (blamed : t.violations ≠ []) (free : u.violations = []) :
    compareObstacle t u ≠ .lt := by
  obtain ⟨x, xs, found⟩ := List.exists_cons_of_ne_nil blamed
  rw [compareObstacle, free, found]
  simp

end Trial

variable [Plane α]

namespace Attempt

/-! ## The plain way -/

/-- What a constraint says at a position, nothing when it cannot be judged. -/
def answer (a : Attempt α) (k : Nat) (r : Reason) : Option (Evidence α) :=
  match (a.insertion k).check r with
  | .ok evidence => some evidence
  | .error _ => none

/-- The violation of a constraint at a position, if it is violated there. -/
def violationOf? (a : Attempt α) (k : Nat) (r : Reason) : Option (Reason × Option α) :=
  match a.answer k r with
  | some (.violated severity) => some (r, severity)
  | _ => none

/-- All violations at a position but that of reachability. -/
def violations (a : Attempt α) (k : Nat) : List (Reason × Option α) := a.catalog.gated.filterMap (a.violationOf? k)

/-- A constraint besides reachability is checked and, asked at a position, violated there. -/
def Violates (a : Attempt α) (k : Nat) (r : Reason) (severity : Option α) : Prop :=
  r ∈ a.catalog.gated ∧ (a.insertion k).check r = .ok (.violated severity)

/-- A position of the route at which paths lead to the job and on from it, or reachability is not checked. -/
def IsOpen (a : Attempt α) (k : Nat) : Prop :=
  k ∈ a.state.positions ∧ (.reachable ∈ a.catalog.reasons → (a.insertion k).check .reachable = .ok .satisfied)

/-- Where areas cannot be judged, that is no reason to stop the evaluation of the job. -/
def AreasJudged (a : Attempt α) : Prop :=
  ∀ k fault, (a.insertion k).check .area = .error fault → fault.ends = false

/-- So it is for every job and route, if nothing that is wrong with an area or a point stops anything. -/
theorem areasJudged_of_stopsNothing (mild : Plane.StopsNothing α) (a : Attempt α) : a.AreasJudged :=
  fun _ _ => Insertion.checkArea_fault mild

/-- Areas, if they are checked, can be judged, or else are no reason to stop. -/
def JudgesAreas (a : Attempt α) : Prop := .area ∈ a.catalog.reasons → a.AreasJudged

/-- The positions with paths to the job and on from it, or all if reachability is not checked. -/
def gate (a : Attempt α) : List Nat :=
  if a.catalog.contains .reachable then a.state.positions.filter fun k => isKept (a.answer k .reachable)
  else a.state.positions

theorem mem_gate {a : Attempt α} {k : Nat} : k ∈ a.gate ↔ a.IsOpen k := by
  unfold gate IsOpen
  by_cases checked : .reachable ∈ a.catalog.reasons
  · rw [if_pos (by simpa [Catalog.contains] using checked), List.mem_filter]
    refine and_congr_right fun member => ?_
    have inside : k ≤ a.state.size := by
      rw [RouteState.positions, List.mem_range] at member
      omega
    obtain ⟨kept, answered⟩ := Insertion.checkReachable_eq_ok (i := a.insertion k) rfl inside
    have answered : (a.insertion k).check .reachable = .ok (.ofKept kept) := answered
    rw [answer, answered]
    cases kept with
    | true => simp [checked, Evidence.ofKept, isKept, Evidence.isSatisfied]
    | false => simp [checked, Evidence.ofKept, isKept, Evidence.isSatisfied]
  · rw [if_neg (by simpa [Catalog.contains] using checked)]
    simp [checked]

theorem violationOf?_eq_some {a : Attempt α} {k : Nat} {r s : Reason} {severity : Option α} :
    a.violationOf? k r = some (s, severity) ↔ r = s ∧ (a.insertion k).check s = .ok (.violated severity) := by
  unfold violationOf? answer
  constructor
  · intro h
    split at h
    · rename_i evidence
      simp only [Option.some.injEq, Prod.mk.injEq] at h
      obtain ⟨rfl, rfl⟩ := h
      refine ⟨rfl, ?_⟩
      split at evidence
      · rename_i checked
        rw [checked, Option.some.inj evidence]
      · exact absurd evidence (by simp)
    · exact absurd h (by simp)
  · rintro ⟨rfl, checked⟩
    simp [checked]

theorem mem_violations {a : Attempt α} {k : Nat} {r : Reason} {severity : Option α} :
    (r, severity) ∈ a.violations k ↔ a.Violates k r severity := by
  rw [violations, List.mem_filterMap, Violates]
  constructor
  · rintro ⟨s, member, found⟩
    obtain ⟨rfl, checked⟩ := violationOf?_eq_some.mp found
    exact ⟨member, checked⟩
  · rintro ⟨member, checked⟩
    exact ⟨r, member, violationOf?_eq_some.mpr ⟨rfl, checked⟩⟩

theorem violations_eq_nil {a : Attempt α} {k : Nat} : a.violations k = [] ↔ ∀ r severity, ¬a.Violates k r severity := by
  rw [List.eq_nil_iff_forall_not_mem]
  constructor
  · intro h r severity violated
    exact h (r, severity) (mem_violations.mpr violated)
  · intro h violation member
    exact h violation.1 violation.2 (mem_violations.mp member)

/-- Violations stand in priority order, no reason twice. -/
theorem violations_pairwise (a : Attempt α) (k : Nat) :
    (a.violations k).Pairwise fun x y => x.1.rank < y.1.rank := by
  have ranked : a.catalog.gated.Pairwise fun r s => r.rank < s.rank :=
    a.catalog.pairwise_rank_lt.sublist List.filter_sublist
  refine List.Pairwise.filterMap _ (fun r s lt x hx y hy => ?_) ranked
  rw [(violationOf?_eq_some.mp hx).1, (violationOf?_eq_some.mp hy).1] at lt
  exact lt

/-! ## Consulting constraints -/

/-- A check that does not depend on the position says the same at every position. -/
theorem check_of_isRouteWide (a : Attempt α) {r : Reason} (wide : r.isRouteWide = true) (j k : Nat) :
    (a.insertion j).check r = (a.insertion k).check r := by
  cases r with
  | skill | area | dispatch | tourSize => rfl
  | unexplained | timeWindow | capacity | reachable | maxDistance | shiftTime | breaks | locking | priority =>
    exact absurd wide (by simp [Reason.isRouteWide])

theorem answer_of_isRouteWide (a : Attempt α) {r : Reason} (wide : r.isRouteWide = true) (j k : Nat) :
    a.answer j r = a.answer k r := by
  unfold answer
  rw [a.check_of_isRouteWide wide j k]

/-- Asking a constraint gives its answer, and stops nothing, unless it is about areas that cannot be judged. -/
theorem consult_outcome {a : Attempt α} {r : Reason} (judged : r = .area → a.AreasJudged) (k : Nat) :
    (a.consult k r).outcome = .ok (a.answer k r) := by
  unfold consult answer
  cases checked : (a.insertion k).check r with
  | ok evidence => rfl
  | error fault =>
    have goesOn : fault.ends = false := by
      by_cases area : r = .area
      · rw [area] at checked
        exact judged area k fault checked
      · exact Insertion.check_fault area checked
    simp [goesOn]

theorem openAmong_outcome (a : Attempt α) (positions : List Nat) :
    (a.openAmong positions).outcome = .ok (positions.filter fun k => isKept (a.answer k .reachable)) := by
  have asked : ∀ k, (a.consult k .reachable).outcome = .ok (a.answer k .reachable) :=
    consult_outcome fun area => absurd area (by simp)
  induction positions with
  | nil => rfl
  | cons k rest ih =>
    simp only [openAmong, Observed.outcome_bind, asked, ih, except_ok_bind, Observed.outcome_pure, List.filter_cons]

/-- Which positions are open can always be told. -/
theorem openPositions_outcome (a : Attempt α) : a.openPositions.outcome = .ok a.gate := by
  unfold openPositions gate
  split
  · exact a.openAmong_outcome _
  · rfl

section

variable {a : Attempt α} (judged : a.JudgesAreas)

include judged

theorem consult_of_mem (k : Nat) {r : Reason} (listed : r ∈ a.catalog.reasons) :
    (a.consult k r).outcome = .ok (a.answer k r) :=
  consult_outcome (fun area => judged (area ▸ listed)) k

theorem consultAll_outcome (k : Nat) {reasons : List Reason} (listed : ∀ r ∈ reasons, r ∈ a.catalog.reasons) :
    (a.consultAll k reasons).outcome = .ok (reasons.map fun r => (r, a.answer k r)) := by
  induction reasons with
  | nil => rfl
  | cons r rest ih =>
    rw [List.forall_mem_cons] at listed
    simp only [consultAll, Observed.outcome_bind, consult_of_mem judged k listed.1, ih listed.2, except_ok_bind,
      Observed.outcome_pure, List.map_cons]

end

/-! ## Trials -/

/-- What is known about a whole route is what its constraints say at every position. -/
def KnownFor (a : Attempt α) (known : Known α) : Prop :=
  ∀ r evidence, known.lookup r = some evidence → ∀ k, evidence = a.answer k r

/-- The answers of checks that do not depend on the position hold for the whole route. -/
theorem knownFor_map (a : Attempt α) (first : Nat) {reasons : List Reason}
    (wide : ∀ r ∈ reasons, r.isRouteWide = true) : a.KnownFor (reasons.map fun r => (r, a.answer first r)) := by
  intro s evidence found k
  obtain ⟨before, after, known_eq, -⟩ := List.lookup_eq_some_iff.mp found
  have member : (s, evidence) ∈ reasons.map fun r => (r, a.answer first r) := by simp [known_eq]
  obtain ⟨r, listed, same⟩ := List.mem_map.mp member
  obtain ⟨rfl, rfl⟩ := Prod.mk.inj same
  exact a.answer_of_isRouteWide (wide r listed) first k

/-- A trial that is not broken off. -/
def fullTrial (a : Attempt α) (k : Nat) : Trial α := ⟨k, a.violations k, true⟩

/-- A trial that is broken off at the first violation. -/
def hastyTrial (a : Attempt α) (k : Nat) : Trial α := ⟨k, (a.violations k).take 1, (a.violations k).isEmpty⟩

section

variable {a : Attempt α} (judged : a.JudgesAreas) {known : Known α} (holds : a.KnownFor known)

include judged holds

theorem recalled_outcome (k : Nat) {r : Reason} (listed : r ∈ a.catalog.reasons) :
    (a.recalled known k r).outcome = .ok (a.answer k r) := by
  unfold recalled
  split
  · rename_i evidence found
    rw [holds r evidence found k]
    rfl
  · exact consult_of_mem judged k listed

theorem trialOf_outcome (hasty : Bool) (k : Nat) {reasons : List Reason}
    (listed : ∀ r ∈ reasons, r ∈ a.catalog.reasons) :
    (a.trialOf known hasty k reasons).outcome
      = .ok (let found := reasons.filterMap (a.violationOf? k)
          if hasty then ⟨k, found.take 1, found.isEmpty⟩ else ⟨k, found, true⟩) := by
  induction reasons with
  | nil => cases hasty <;> rfl
  | cons r rest ih =>
    rw [List.forall_mem_cons] at listed
    have ih := ih listed.2
    rw [trialOf, Observed.outcome_bind, recalled_outcome judged holds k listed.1, except_ok_bind, List.filterMap_cons]
    -- a constraint that cannot be judged, or is kept, leaves the trial to go on; a violation may break it off
    cases said : a.answer k r with
    | none =>
      have kept : a.violationOf? k r = none := by simp [violationOf?, said]
      rw [kept]
      exact ih
    | some evidence =>
      cases evidence with
      | satisfied =>
        have kept : a.violationOf? k r = none := by simp [violationOf?, said]
        rw [kept]
        exact ih
      | violated severity =>
        have found : a.violationOf? k r = some (r, severity) := by simp [violationOf?, said]
        rw [found]
        cases hasty with
        | true => rfl
        | false =>
          simp only [Bool.false_eq_true, if_false, Observed.outcome_bind, ih, except_ok_bind]
          rfl

theorem trial_outcome (hasty : Bool) (k : Nat) :
    (a.trial known hasty k).outcome = .ok (if hasty then a.hastyTrial k else a.fullTrial k) :=
  trialOf_outcome judged holds hasty k fun _ member => (List.mem_filter.mp member).1

theorem trialsAt_outcome (hasty : Bool) (positions : List Nat) :
    (a.trialsAt known hasty positions).outcome
      = .ok (positions.map fun k => if hasty then a.hastyTrial k else a.fullTrial k) := by
  induction positions with
  | nil => rfl
  | cons k rest ih =>
    simp only [trialsAt, Observed.outcome_bind, trial_outcome judged holds, ih, except_ok_bind, Observed.outcome_pure,
      List.map_cons]

end

/-! ## The trial that is shown -/

theorem routeWide_isRouteWide (c : Catalog) : ∀ r ∈ c.routeWide, r.isRouteWide = true := by
  intro r member
  exact (List.mem_filter.mp member).2

/-- Of the hasty trials at some positions, the one with the least obstacle. -/
def leastObstacle (a : Attempt α) (first : Nat) (rest : List Nat) : Trial α :=
  firstLeast Trial.compareObstacle (a.hastyTrial first) (rest.map a.hastyTrial)

theorem leastObstacle_mem (a : Attempt α) (first : Nat) (rest : List Nat) :
    ∃ k ∈ first :: rest, a.leastObstacle first rest = a.hastyTrial k :=
  firstLeast_map_mem Trial.compareObstacle a.hastyTrial first rest

theorem hastyTrial_violations_eq_nil {a : Attempt α} {k : Nat} :
    (a.hastyTrial k).violations = [] ↔ a.violations k = [] := by simp [hastyTrial]

/-- A hasty trial that finds nothing is not broken off. -/
theorem hastyTrial_of_free {a : Attempt α} {k : Nat} (free : a.violations k = []) : a.hastyTrial k = a.fullTrial k := by
  simp [hastyTrial, fullTrial, free]

/-- The least obstacle is none just when some position is without violations. -/
theorem leastObstacle_complete (a : Attempt α) (first : Nat) (rest : List Nat) :
    (a.leastObstacle first rest).complete = true ↔ ∃ k ∈ first :: rest, a.violations k = [] := by
  obtain ⟨k, member, same⟩ := a.leastObstacle_mem first rest
  constructor
  · intro complete
    rw [same] at complete
    exact ⟨k, member, List.isEmpty_iff.mp complete⟩
  · rintro ⟨j, free_member, free⟩
    have none : (a.leastObstacle first rest).violations = [] := by
      apply firstLeast_of_exists (P := fun t : Trial α => t.violations = [])
      · exact fun y best => Trial.compareObstacle_of_free
      · exact fun y best => Trial.compareObstacle_of_blamed
      · refine ⟨a.hastyTrial j, ?_, hastyTrial_violations_eq_nil.mpr free⟩
        rw [← List.map_cons]
        exact List.mem_map_of_mem free_member
    rw [same] at none ⊢
    simp [hastyTrial, hastyTrial_violations_eq_nil.mp none]

section

variable {a : Attempt α} (judged : a.JudgesAreas)

include judged

theorem shown_outcome (first : Nat) (rest : List Nat) {made : List (Trial α)}
    (tried : ∀ known, a.KnownFor known → (a.trials known (first :: rest)).outcome = .ok made) :
    (a.shown first rest).outcome = Trial.nearest Trial.compareClosest (made.filter (·.complete)) := by
  have holds := a.knownFor_map first (routeWide_isRouteWide a.catalog)
  have listed : ∀ r ∈ a.catalog.routeWide, r ∈ a.catalog.reasons := fun r member => (List.mem_filter.mp member).1
  simp only [shown, Observed.outcome_bind, consultAll_outcome judged first listed, except_ok_bind, tried _ holds,
    Observed.outcome_ofExcept]

/-- In the exhaustive mode the closest of all full trials is shown. -/
theorem shown_of_exhaustive (exhaustive : a.exhaustive = true) (first : Nat) (rest : List Nat) :
    (a.shown first rest).outcome
      = .ok (firstLeast Trial.compareClosest (a.fullTrial first) (rest.map a.fullTrial)) := by
  have tried : ∀ known, a.KnownFor known →
      (a.trials known (first :: rest)).outcome = .ok ((first :: rest).map a.fullTrial) := by
    intro known holds
    rw [trials, if_pos exhaustive, trialsAt_outcome judged holds]
    rfl
  have all_complete : ((first :: rest).map a.fullTrial).filter (·.complete) = (first :: rest).map a.fullTrial := by
    rw [List.filter_eq_self]
    intro t member
    obtain ⟨k, -, rfl⟩ := List.mem_map.mp member
    rfl
  rw [shown_outcome judged first rest tried, all_complete]
  rfl

/-- In the hasty mode the trials are those broken off and, if there is an obstacle everywhere, a full one where it is
least. -/
theorem trials_of_hasty (hasty : a.exhaustive = false) (first : Nat) (rest : List Nat) {known : Known α}
    (holds : a.KnownFor known) :
    (a.trials known (first :: rest)).outcome
      = .ok (if (a.leastObstacle first rest).complete then (first :: rest).map a.hastyTrial
          else (first :: rest).map a.hastyTrial ++ [a.fullTrial (a.leastObstacle first rest).position]) := by
  have least : Trial.nearest Trial.compareObstacle ((first :: rest).map a.hastyTrial)
      = .ok (a.leastObstacle first rest) := rfl
  rw [trials, if_neg (by simp [hasty]), Observed.outcome_bind, trialsAt_outcome judged holds, except_ok_bind,
    Observed.outcome_bind, Observed.outcome_ofExcept]
  simp only [if_true]
  rw [least, except_ok_bind]
  split
  · rfl
  · rw [Observed.outcome_bind, trial_outcome judged holds]
    rfl

/-- In the hasty mode, if there is an obstacle everywhere, the full trial where it is least is shown. -/
theorem shown_of_hasty (hasty : a.exhaustive = false) {first : Nat} {rest : List Nat}
    (blocked : ∀ k ∈ first :: rest, a.violations k ≠ []) :
    (a.shown first rest).outcome = .ok (a.fullTrial (a.leastObstacle first rest).position) := by
  -- the hasty trials are all broken off, so only the full one is left
  have obstacle : ¬(a.leastObstacle first rest).complete = true := by
    rw [leastObstacle_complete]
    rintro ⟨k, member, free⟩
    exact blocked k member free
  have broken_off : ((first :: rest).map a.hastyTrial).filter (·.complete) = [] := by
    rw [List.filter_eq_nil_iff]
    intro t tried complete
    obtain ⟨k, member, rfl⟩ := List.mem_map.mp tried
    exact blocked k member (List.isEmpty_iff.mp complete)
  rw [shown_outcome judged first rest fun known holds => trials_of_hasty judged hasty first rest holds, if_neg obstacle,
    List.filter_append, broken_off]
  rfl

/-- In the hasty mode, if some position is without violations, the trial at such a position is shown. -/
theorem shown_of_free (hasty : a.exhaustive = false) {first : Nat} {rest : List Nat}
    (free : ∃ k ∈ first :: rest, a.violations k = []) :
    ∃ k ∈ first :: rest, a.violations k = [] ∧ (a.shown first rest).outcome = .ok (a.fullTrial k) := by
  have complete := (a.leastObstacle_complete first rest).mpr free
  -- the complete ones among the hasty trials are those without violations
  obtain ⟨j, free_member, free⟩ := free
  have kept : a.hastyTrial j ∈ ((first :: rest).map a.hastyTrial).filter (·.complete) := by
    rw [List.mem_filter]
    exact ⟨List.mem_map_of_mem free_member, List.isEmpty_iff.mpr free⟩
  obtain ⟨t, others, found⟩ := List.exists_cons_of_ne_nil (List.ne_nil_of_mem kept)
  have chosen := firstLeast_mem Trial.compareClosest t others
  rw [← found, List.mem_filter, List.mem_map] at chosen
  obtain ⟨⟨k, member, same⟩, free⟩ := chosen
  rw [← same] at free
  have free : a.violations k = [] := List.isEmpty_iff.mp free
  refine ⟨k, member, free, ?_⟩
  rw [shown_outcome judged first rest fun known holds => trials_of_hasty judged hasty first rest holds,
    if_pos complete, found, Trial.nearest, ← same, hastyTrial_of_free free]

end

end Attempt

/-! ## One order for each mode -/

namespace Trial

/-- The order by which a mode chooses the trial that it shows. -/
def orderOf (exhaustive : Bool) : Trial α → Trial α → Ordering :=
  if exhaustive then compareClosest else compareObstacle

omit [Plane α] in
theorem orderOf_of_free {t u : Trial α} (exhaustive : Bool) (free : t.violations = []) (blamed : u.violations ≠ []) :
    orderOf exhaustive t u = .lt := by
  cases exhaustive with
  | true => exact compareClosest_of_free free blamed
  | false => exact compareObstacle_of_free free blamed

omit [Plane α] in
theorem orderOf_of_blamed {t u : Trial α} (exhaustive : Bool) (blamed : t.violations ≠ []) (free : u.violations = []) :
    orderOf exhaustive t u ≠ .lt := by
  cases exhaustive with
  | true => exact compareClosest_of_blamed blamed free
  | false => exact compareObstacle_of_blamed blamed free

end Trial

namespace Attempt

/-- The outcome that shows the first by an order of the full trials at all open positions. -/
def outcomeBy (a : Attempt α) (order : Trial α → Trial α → Ordering) : VehicleOutcome α :=
  match a.gate with
  | [] => outOfReach a.state.vehicle.id
  | first :: rest => outcomeOf a.state.vehicle.id (firstLeast order (a.fullTrial first) (rest.map a.fullTrial))

theorem outcomeBy_of_closed {a : Attempt α} (closed : a.gate = []) (order : Trial α → Trial α → Ordering) :
    a.outcomeBy order = outOfReach a.state.vehicle.id := by
  rw [outcomeBy, closed]

theorem outcomeBy_of_gate {a : Attempt α} {first : Nat} {rest : List Nat} (found : a.gate = first :: rest)
    (order : Trial α → Trial α → Ordering) :
    a.outcomeBy order
      = outcomeOf a.state.vehicle.id (firstLeast order (a.fullTrial first) (rest.map a.fullTrial)) := by
  rw [outcomeBy, found]

/-- If an order of full trials puts the open positions one after the other, then just one of them comes before all others,
and what is shown by that order is the trial there. -/
theorem exists_outcomeBy {a : Attempt α} {order : Trial α → Trial α → Ordering} {Before : Nat → Nat → Prop}
    (gated : ∃ k, a.IsOpen k)
    (lt_iff : ∀ j, a.IsOpen j → ∀ k, a.IsOpen k → (order (a.fullTrial j) (a.fullTrial k) = .lt ↔ Before j k))
    (irrefl : ∀ k, ¬Before k k) (trans : ∀ i j k, Before i j → Before j k → Before i k)
    (total : ∀ j, a.IsOpen j → ∀ k, a.IsOpen k → j ≠ k → Before j k ∨ Before k j) :
    ∃ k, (a.IsOpen k ∧ ∀ j, a.IsOpen j → j ≠ k → Before k j)
      ∧ (∀ j, (a.IsOpen j ∧ ∀ i, a.IsOpen i → i ≠ j → Before j i) → j = k)
      ∧ a.outcomeBy order = outcomeOf a.state.vehicle.id (a.fullTrial k) := by
  obtain ⟨k, isOpen⟩ := gated
  obtain ⟨first, rest, found⟩ := List.exists_cons_of_ne_nil (List.ne_nil_of_mem (mem_gate.mpr isOpen))
  have open_iff : ∀ j, j ∈ first :: rest ↔ a.IsOpen j := fun j => found ▸ mem_gate
  obtain ⟨j, listed, chosen, before⟩ := exists_firstLeast_map order a.fullTrial
    (fun j hj k hk => lt_iff j ((open_iff j).mp hj) k ((open_iff k).mp hk)) (fun i _ j _ k _ => trans i j k)
    fun j hj k hk => total j ((open_iff j).mp hj) k ((open_iff k).mp hk)
  have isOpen_j : a.IsOpen j := (open_iff j).mp listed
  have before : ∀ i, a.IsOpen i → i ≠ j → Before j i := fun i isOpen => before i ((open_iff i).mpr isOpen)
  refine ⟨j, ⟨isOpen_j, before⟩, ?_, by rw [outcomeBy_of_gate found, chosen]⟩
  rintro i ⟨isOpen_i, before'⟩
  by_contra differ
  exact irrefl i (trans i j i (before' j isOpen_j (Ne.symm differ)) (before i isOpen_i differ))

/-- The first trial by the order of a mode is without violations, if any of them is. -/
theorem violations_firstLeast_eq_nil {a : Attempt α} (exhaustive : Bool) {first : Nat} {rest : List Nat}
    (free : ∃ k ∈ first :: rest, a.violations k = []) :
    (firstLeast (Trial.orderOf exhaustive) (a.fullTrial first) (rest.map a.fullTrial)).violations = [] := by
  obtain ⟨k, listed, free⟩ := free
  apply firstLeast_of_exists (P := fun t : Trial α => t.violations = [])
  · exact fun _ _ => Trial.orderOf_of_free exhaustive
  · exact fun _ _ => Trial.orderOf_of_blamed exhaustive
  · refine ⟨a.fullTrial k, ?_, free⟩
    rw [← List.map_cons]
    exact List.mem_map_of_mem listed

theorem outcomeOf_of_free {a : Attempt α} {k : Nat} (vehicleId : Text) (free : a.violations k = []) :
    outcomeOf vehicleId (a.fullTrial k) = ⟨vehicleId, [], false, true⟩ := by
  simp [outcomeOf, fullTrial, Trial.records, Trial.isFree, free]

/-- Once some open position is without violations, the outcome is the same by the order of either mode. -/
theorem outcomeBy_of_free {a : Attempt α} (exhaustive : Bool) (free : ∃ k ∈ a.gate, a.violations k = []) :
    a.outcomeBy (Trial.orderOf exhaustive) = ⟨a.state.vehicle.id, [], false, true⟩ := by
  obtain ⟨j, listed, none⟩ := free
  obtain ⟨first, rest, found⟩ := List.exists_cons_of_ne_nil (List.ne_nil_of_mem listed)
  obtain ⟨k, -, same⟩ := firstLeast_map_mem (Trial.orderOf exhaustive) a.fullTrial first rest
  have chosen := violations_firstLeast_eq_nil exhaustive ⟨j, found ▸ listed, none⟩
  rw [same] at chosen
  rw [outcomeBy_of_gate found, same, outcomeOf_of_free _ chosen]

/-- Obstacles are compared by first violations, so it does not matter whether trials are broken off after them. -/
theorem compareObstacle_hastyTrial (a : Attempt α) (j k : Nat) :
    Trial.compareObstacle (a.hastyTrial j) (a.hastyTrial k)
      = Trial.compareObstacle (a.fullTrial j) (a.fullTrial k) := by
  simp only [Trial.compareObstacle, hastyTrial, fullTrial]
  cases a.violations j with
  | nil => cases a.violations k <;> rfl
  | cons _ _ => cases a.violations k <;> rfl

/-- The full trial where the obstacle is least is the least obstacle of the full trials. -/
theorem fullTrial_leastObstacle (a : Attempt α) (first : Nat) (rest : List Nat) :
    a.fullTrial (a.leastObstacle first rest).position
      = firstLeast Trial.compareObstacle (a.fullTrial first) (rest.map a.fullTrial) := by
  have same : (fun j k => Trial.compareObstacle (a.hastyTrial j) (a.hastyTrial k))
      = fun j k => Trial.compareObstacle (a.fullTrial j) (a.fullTrial k) := by
    funext j k
    exact a.compareObstacle_hastyTrial j k
  rw [leastObstacle, firstLeast_map, firstLeast_map, same]
  rfl

theorem survey_of_closed {a : Attempt α} (closed : a.gate = []) :
    (survey a).outcome = .ok (outOfReach a.state.vehicle.id) := by
  rw [survey, Observed.outcome_bind, openPositions_outcome, closed]
  rfl

theorem survey_of_gate {a : Attempt α} {first : Nat} {rest : List Nat} (found : a.gate = first :: rest) :
    (survey a).outcome = (a.shown first rest).outcome.map (outcomeOf a.state.vehicle.id) := by
  rw [survey, Observed.outcome_bind, openPositions_outcome, found, except_ok_bind, Observed.outcome_bind]
  rfl

/-- A survey is not stopped, and shows the first of the full trials at all open positions, by the order of its mode. -/
theorem survey_outcome {a : Attempt α} (judged : a.JudgesAreas) :
    (survey a).outcome = .ok (a.outcomeBy (Trial.orderOf a.exhaustive)) := by
  cases found : a.gate with
  | nil => rw [survey_of_closed found, outcomeBy_of_closed found]
  | cons first rest =>
    cases mode : a.exhaustive with
    | true =>
      rw [survey_of_gate found, shown_of_exhaustive judged mode, outcomeBy_of_gate found]
      rfl
    | false =>
      by_cases free : ∃ k ∈ a.gate, a.violations k = []
      · obtain ⟨k, -, none, shown⟩ := shown_of_free judged mode (found ▸ free)
        rw [survey_of_gate found, shown, outcomeBy_of_free false free, except_map_ok, outcomeOf_of_free _ none]
      · have blocked : ∀ k ∈ first :: rest, a.violations k ≠ [] := by
          rw [← found]
          exact fun k listed none => free ⟨k, listed, none⟩
        rw [survey_of_gate found, shown_of_hasty judged mode blocked, fullTrial_leastObstacle, outcomeBy_of_gate found]
        rfl

/-! ### Areas that cannot be judged -/

theorem consultAll_of_error {a : Attempt α} {k : Nat} {fault : Fault}
    (failed : (a.insertion k).check .area = .error fault) (ends : fault.ends = true) {reasons : List Reason}
    (listed : .area ∈ reasons) : (a.consultAll k reasons).outcome = .error fault := by
  induction reasons with
  | nil => exact absurd listed (by simp)
  | cons r rest ih =>
    rw [consultAll, Observed.outcome_bind]
    by_cases area : r = .area
    · have stopped : (a.consult k r).outcome = .error fault := by
        rw [area, consult, failed]
        simp [ends]
      rw [stopped, except_error_bind]
    · have later : .area ∈ rest := (List.mem_cons.mp listed).resolve_left (Ne.symm area)
      rw [consult_outcome (fun same => absurd same area), except_ok_bind, Observed.outcome_bind, ih later,
        except_error_bind]

/-- A failure to judge areas stops the survey once some position is open: it is met before any of them is tried. -/
theorem survey_of_error {a : Attempt α} {first : Nat} {rest : List Nat} (found : a.gate = first :: rest) {k : Nat}
    {fault : Fault} (checked : .area ∈ a.catalog.reasons) (failed : (a.insertion k).check .area = .error fault)
    (ends : fault.ends = true) : (survey a).outcome = .error fault := by
  have here : (a.insertion first).check .area = .error fault := by
    rw [a.check_of_isRouteWide rfl first k, failed]
  have wide : .area ∈ a.catalog.routeWide := List.mem_filter.mpr ⟨checked, rfl⟩
  rw [survey_of_gate found, shown, Observed.outcome_bind, consultAll_of_error here ends wide]
  rfl

/-- Either a survey shows, in each mode, the first of the full trials by the order of that mode; or areas cannot be
judged, and the same fault stops it in both modes. -/
theorem survey_inMode (a : Attempt α) :
    (¬a.JudgesAreas ∧ ∃ fault, ∀ exhaustive, (survey { a with exhaustive }).outcome = .error fault)
      ∨ ∀ exhaustive, (survey { a with exhaustive }).outcome = .ok (a.outcomeBy (Trial.orderOf exhaustive)) := by
  by_cases judged : a.JudgesAreas
  · exact Or.inr fun exhaustive => survey_outcome (a := { a with exhaustive }) judged
  · cases found : a.gate with
    | nil =>
      refine Or.inr fun exhaustive => ?_
      rw [outcomeBy_of_closed found]
      exact survey_of_closed (a := { a with exhaustive }) found
    | cons first rest =>
      obtain ⟨checked, unjudged⟩ := Classical.not_imp.mp judged
      simp only [AreasJudged, not_forall, Bool.not_eq_false] at unjudged
      obtain ⟨k, fault, failed, ends⟩ := unjudged
      exact Or.inl ⟨judged, fault, fun exhaustive =>
        survey_of_error (a := { a with exhaustive }) found checked failed ends⟩

/-- A survey that is not stopped shows the first of the full trials by the order of its mode. -/
theorem survey_eq_ok {a : Attempt α} {out : VehicleOutcome α} (found : (survey a).outcome = .ok out) :
    out = a.outcomeBy (Trial.orderOf a.exhaustive) := by
  rcases a.survey_inMode with ⟨-, fault, failed⟩ | shown
  · have stopped : (survey a).outcome = .error fault := failed a.exhaustive
    exact absurd (found.symm.trans stopped) (by simp)
  · have shown : (survey a).outcome = .ok (a.outcomeBy (Trial.orderOf a.exhaustive)) := shown a.exhaustive
    exact Except.ok.inj (found.symm.trans shown)

/-- A survey is stopped just when areas cannot be judged although some position is open. -/
theorem exists_survey_iff (a : Attempt α) :
    (∃ out, (survey a).outcome = .ok out) ↔ ((∃ k, a.IsOpen k) → a.JudgesAreas) := by
  by_cases judged : a.JudgesAreas
  · exact iff_of_true ⟨_, survey_outcome judged⟩ fun _ => judged
  · cases found : a.gate with
    | nil =>
      refine iff_of_true ⟨_, survey_of_closed found⟩ ?_
      rintro ⟨k, isOpen⟩
      have member := mem_gate.mpr isOpen
      rw [found] at member
      exact absurd member (by simp)
    | cons first rest =>
      have isOpen : a.IsOpen first := mem_gate.mp (found ▸ List.mem_cons_self)
      refine iff_of_false ?_ fun judges => judged (judges ⟨first, isOpen⟩)
      obtain ⟨checked, unjudged⟩ := Classical.not_imp.mp judged
      simp only [AreasJudged, not_forall, Bool.not_eq_false] at unjudged
      obtain ⟨k, fault, failed, ends⟩ := unjudged
      rintro ⟨out, ok⟩
      exact absurd (ok.symm.trans (survey_of_error found checked failed ends)) (by simp)

/-- Once some position is open, a survey is stopped just when areas cannot be judged. -/
theorem exists_survey_iff_judgesAreas {a : Attempt α} (gated : ∃ k, a.IsOpen k) :
    (∃ out, (survey a).outcome = .ok out) ↔ a.JudgesAreas :=
  a.exists_survey_iff.trans ⟨fun judges => judges gated, fun judges _ => judges⟩

/-! ## Outcomes -/

/-- Records are the violations at a position, each with its evidence and that position, in priority order. -/
structure Records (a : Attempt α) (k : Nat) (records : List (Record α)) : Prop where
  mem_iff : ∀ record, record ∈ records ↔ ∃ r severity, a.Violates k r severity
    ∧ record = ⟨r, .violated severity, some a.state.vehicle.id, some k⟩
  ranked : records.Pairwise fun x y => x.code.rank < y.code.rank

/-- An outcome is what the plain way finds: out of reach if no position is open; else the violations at one of the
open positions; feasible if one of them is without violations. -/
structure Agrees (a : Attempt α) (out : VehicleOutcome α) : Prop where
  vehicleId_eq : out.vehicleId = a.state.vehicle.id
  unreachable_iff : out.unreachable = true ↔ ¬∃ k, a.IsOpen k
  of_unreachable : out.unreachable = true →
    out.records = [⟨.reachable, .violated none, some a.state.vehicle.id, none⟩]
  of_reachable : out.unreachable = false → ∃ k, a.IsOpen k ∧ a.Records k out.records
  feasible_iff : out.feasible = true ↔ ∃ k, a.IsOpen k ∧ ∀ r severity, ¬a.Violates k r severity
  of_feasible : out.feasible = true → out.records = []

theorem records_fullTrial (a : Attempt α) (k : Nat) : a.Records k ((a.fullTrial k).records a.state.vehicle.id) where
  mem_iff := by
    intro record
    rw [Trial.records, List.mem_map]
    constructor
    · rintro ⟨⟨r, severity⟩, member, rfl⟩
      exact ⟨r, severity, mem_violations.mp member, rfl⟩
    · rintro ⟨r, severity, violated, rfl⟩
      exact ⟨(r, severity), mem_violations.mpr violated, rfl⟩
  ranked := by
    rw [Trial.records, List.pairwise_map]
    exact a.violations_pairwise k

theorem agrees_outOfReach {a : Attempt α} (closed : a.gate = []) : a.Agrees (outOfReach a.state.vehicle.id) where
  vehicleId_eq := rfl
  unreachable_iff := by
    refine ⟨fun _ => ?_, fun _ => rfl⟩
    rintro ⟨k, isOpen⟩
    have member := mem_gate.mpr isOpen
    rw [closed] at member
    exact absurd member (by simp)
  of_unreachable := fun _ => rfl
  of_reachable := fun h => absurd h (by simp [outOfReach])
  feasible_iff := by
    refine ⟨fun h => absurd h (by simp [outOfReach]), ?_⟩
    rintro ⟨k, isOpen, -⟩
    have member := mem_gate.mpr isOpen
    rw [closed] at member
    exact absurd member (by simp)
  of_feasible := fun h => absurd h (by simp [outOfReach])

theorem agrees_outcomeOf {a : Attempt α} {k : Nat} (isOpen : a.IsOpen k)
    (free : (∃ j, a.IsOpen j ∧ a.violations j = []) → a.violations k = []) :
    a.Agrees (outcomeOf a.state.vehicle.id (a.fullTrial k)) where
  vehicleId_eq := rfl
  unreachable_iff := ⟨fun h => absurd h (by simp [outcomeOf]), fun h => absurd ⟨k, isOpen⟩ h⟩
  of_unreachable := fun h => absurd h (by simp [outcomeOf])
  of_reachable := fun _ => ⟨k, isOpen, a.records_fullTrial k⟩
  feasible_iff := by
    show (a.violations k).isEmpty = true ↔ _
    rw [List.isEmpty_iff]
    constructor
    · intro none
      exact ⟨k, isOpen, violations_eq_nil.mp none⟩
    · rintro ⟨j, isOpen_j, none⟩
      exact free ⟨j, isOpen_j, violations_eq_nil.mpr none⟩
  of_feasible := by
    intro h
    have none : a.violations k = [] := List.isEmpty_iff.mp h
    simp [outcomeOf, Trial.records, fullTrial, none]

/-- The outcome by the order of a mode agrees with the plain way. -/
theorem agrees_outcomeBy (a : Attempt α) (exhaustive : Bool) : a.Agrees (a.outcomeBy (Trial.orderOf exhaustive)) := by
  cases found : a.gate with
  | nil =>
    rw [outcomeBy_of_closed found]
    exact agrees_outOfReach found
  | cons first rest =>
    obtain ⟨k, listed, same⟩ := firstLeast_map_mem (Trial.orderOf exhaustive) a.fullTrial first rest
    rw [outcomeBy_of_gate found, same]
    refine agrees_outcomeOf (mem_gate.mp (found ▸ listed)) ?_
    rintro ⟨j, isOpen, none⟩
    have chosen := violations_firstLeast_eq_nil exhaustive ⟨j, found ▸ mem_gate.mpr isOpen, none⟩
    rw [same] at chosen
    exact chosen

/-- A survey is not stopped, and agrees with the plain way. -/
theorem survey_agrees {a : Attempt α} (judged : a.AreasJudged) : ∃ out, (survey a).outcome = .ok out ∧ a.Agrees out :=
  ⟨_, survey_outcome fun _ => judged, a.agrees_outcomeBy _⟩

/-- Two outcomes for the same attempt in different modes are of the same kind. -/
theorem Agrees.same_flags {a b : Attempt α} {out out' : VehicleOutcome α} (h : a.Agrees out) (h' : b.Agrees out')
    (isOpen_iff : ∀ k, a.IsOpen k ↔ b.IsOpen k)
    (violates_iff : ∀ k r severity, a.Violates k r severity ↔ b.Violates k r severity) :
    out.unreachable = out'.unreachable ∧ out.feasible = out'.feasible := by
  constructor
  · rw [Bool.eq_iff_iff, h.unreachable_iff, h'.unreachable_iff]
    simp only [isOpen_iff]
  · rw [Bool.eq_iff_iff, h.feasible_iff, h'.feasible_iff]
    simp only [isOpen_iff, violates_iff]

end Attempt

/-- The evaluator in the mode told. -/
def Evaluator.inMode (e : Evaluator α) (exhaustive : Bool) : Evaluator α :=
  { e with settings := { e.settings with exhaustive } }

/-- Whichever constraints are checked, whatever the job and the route, and in either mode, the evaluation of a vehicle
is not stopped and finds what the plain way finds at one of the open positions; and the modes agree on whether the
vehicle can reach the job, and whether it could take it. -/
theorem Evaluator.evaluateVehicle_agrees (e : Evaluator α) (job : Job α) (state : RouteState α)
    (judged : (e.attempt job state).AreasJudged) :
    ∃ out out', ((e.inMode true).evaluateVehicle job state).outcome = .ok out
      ∧ ((e.inMode false).evaluateVehicle job state).outcome = .ok out'
      ∧ ((e.inMode true).attempt job state).Agrees out ∧ ((e.inMode false).attempt job state).Agrees out'
      ∧ out.unreachable = out'.unreachable ∧ out.feasible = out'.feasible := by
  obtain ⟨out, found, agrees⟩ := Attempt.survey_agrees (a := (e.inMode true).attempt job state) judged
  obtain ⟨out', found', agrees'⟩ := Attempt.survey_agrees (a := (e.inMode false).attempt job state) judged
  refine ⟨out, out', found, found', agrees, agrees', ?_⟩
  exact agrees.same_flags agrees' (fun k => Iff.rfl) fun k r severity => Iff.rfl

/-- The plan of the shuttle: three parcels, of which it has one on board. -/
def shuttlePlan : Problem Exact where
  jobs := [RouteState.parcel "a", RouteState.parcel "b", RouteState.parcel "c"]
  fleet := [RouteState.shuttle]
  relations := []
  matrices := [("car", RouteState.twoPlaces)]

/-- The shuttle takes one parcel and leaves the others, one of which is listed twice. -/
def shuttleSolution : Solution Exact where
  routes := [⟨"shuttle", none, [.bare "a"], none, none⟩]
  unassigned := ["c", "b", "c"]
  hints := []

/-- The evaluator of that solution, with all checks. -/
def shuttleEvaluator : Evaluator Exact where
  problem := shuttlePlan
  solution := shuttleSolution
  catalog := .without []
  settings := {}
  states := [RouteState.shuttleRoute]

theorem evaluateVehicle_agrees_shuttle :
    (shuttleEvaluator.attempt (RouteState.parcel "b") RouteState.shuttleRoute).AreasJudged
      ∧ ∃ out out',
        ((shuttleEvaluator.inMode true).evaluateVehicle (RouteState.parcel "b") RouteState.shuttleRoute).outcome = .ok out
        ∧ ((shuttleEvaluator.inMode false).evaluateVehicle (RouteState.parcel "b") RouteState.shuttleRoute).outcome
          = .ok out'
        ∧ out.unreachable = out'.unreachable ∧ out.feasible = out'.feasible := by
  have judged : (shuttleEvaluator.attempt (RouteState.parcel "b") RouteState.shuttleRoute).AreasJudged := by
    intro k fault failed
    exact absurd failed (by simp [Insertion.check, Insertion.checkArea, Insertion.vehicle, Attempt.insertion,
      Evaluator.attempt, RouteState.shuttleRoute, RouteState.shuttle])
  obtain ⟨out, out', found, found', -, -, same⟩ :=
    shuttleEvaluator.evaluateVehicle_agrees (RouteState.parcel "b") RouteState.shuttleRoute judged
  exact ⟨judged, out, out', found, found', same⟩

end Leftover
