/-
# The weakest obstacle

In the hasty mode a position is left at its first violation, and where every open position has one a vehicle is shown at
the position where the obstacle is the weakest: where the most fundamental of the violated constraints is the least
fundamental. All violations at that position are shown, so what comes first among them holds the job up everywhere: each
open position violates a constraint that is as fundamental, or more.

* `Attempt.Blocks` : the most fundamental constraint that is violated at a position
* `Attempt.Weaker` : the obstacle at a position is weaker than at another
* `Attempt.compareObstacle_fullTrial` : the order of trials is that of positions
* `Evaluator.shows_weakest` : the position that is shown
-/
import Leftover.Proofs.Modes
import Leftover.Proofs.Records

namespace Leftover

variable {α : Type} [Quantity α] [Plane α]

namespace Attempt

/-! ## Obstacles -/

/-- A constraint is the most fundamental one that is violated at a position. -/
def Blocks (a : Attempt α) (k : Nat) (r : Reason) (severity : Option α) : Prop :=
  a.Violates k r severity ∧ ∀ c other, a.Violates k c other → r.rank ≤ c.rank

/-- The obstacle at a position is weaker than at another: it comes later in the priority order; or it is the same and
milder; or neither, and the position is the earlier one. -/
inductive Weaker (a : Attempt α) (j k : Nat) : Prop
  | later {r s : Reason} {x y : Option α} (here : a.Blocks j r x) (there : a.Blocks k s y) (rank : s.rank < r.rank) :
    Weaker a j k
  | milder {r : Reason} {x y : Option α} (here : a.Blocks j r x) (there : a.Blocks k r y) (milder : Milder x y) :
    Weaker a j k
  | earlier {r : Reason} {x y : Option α} (here : a.Blocks j r x) (there : a.Blocks k r y)
    (level : AsSevere x y) (before : j < k) : Weaker a j k

/-- The open position where the obstacle is weaker than at all others. -/
def IsWeakest (a : Attempt α) (k : Nat) : Prop := a.IsOpen k ∧ ∀ j, a.IsOpen j → j ≠ k → a.Weaker k j

section

variable {a : Attempt α} {i j k : Nat} {r s : Reason} {x y : Option α}

theorem Blocks.unique (here : a.Blocks k r x) (here' : a.Blocks k s y) : r = s ∧ x = y := by
  obtain rfl : r = s := Reason.eq_of_rank_eq (Nat.le_antisymm (here.2 s y here'.1) (here'.2 r x here.1))
  have same := here.1.2.symm.trans here'.1.2
  exact ⟨rfl, by simpa using same⟩

/-- The first of the violations at a position is the most fundamental one. -/
theorem blocks_of_cons {others : List (Reason × Option α)} (found : a.violations k = (r, x) :: others) :
    a.Blocks k r x := by
  have ranked := a.violations_pairwise k
  rw [found, List.pairwise_cons] at ranked
  refine ⟨mem_violations.mp (by simp [found]), fun c other violated => ?_⟩
  have member := mem_violations.mpr violated
  rw [found] at member
  rcases List.mem_cons.mp member with same | member
  · rw [(Prod.mk.inj same).1]
  · exact Nat.le_of_lt (ranked.1 _ member)

theorem exists_blocks (blocked : a.violations k ≠ []) :
    ∃ r x others, a.violations k = (r, x) :: others ∧ a.Blocks k r x := by
  obtain ⟨⟨r, x⟩, others, found⟩ := List.exists_cons_of_ne_nil blocked
  exact ⟨r, x, others, found, blocks_of_cons found⟩

theorem weaker_or_weaker (blocked : a.violations j ≠ []) (blocked' : a.violations k ≠ []) (differ : j ≠ k) :
    a.Weaker j k ∨ a.Weaker k j := by
  obtain ⟨r, x, -, -, here⟩ := exists_blocks blocked
  obtain ⟨s, y, -, -, there⟩ := exists_blocks blocked'
  rcases Nat.lt_trichotomy r.rank s.rank with lower | same | higher
  · exact Or.inr (.later there here lower)
  · obtain rfl := Reason.eq_of_rank_eq same
    by_cases milder : Milder x y
    · exact Or.inl (.milder here there milder)
    · by_cases milder' : Milder y x
      · exact Or.inr (.milder there here milder')
      · rcases Nat.lt_or_gt_of_ne differ with before | after
        · exact Or.inl (.earlier here there ⟨milder, milder'⟩ before)
        · exact Or.inr (.earlier there here ⟨milder', milder⟩ after)
  · exact Or.inl (.later here there higher)

/-- Each open position violates a constraint that is as fundamental as any that is violated where the obstacle is the
weakest. -/
theorem IsWeakest.exists_rank_le (weakest : a.IsWeakest k) (violated : a.Violates k r x) (isOpen : a.IsOpen j) :
    ∃ s y, a.Violates j s y ∧ s.rank ≤ r.rank := by
  by_cases same : j = k
  · exact ⟨r, x, same ▸ violated, Nat.le_refl _⟩
  · cases weakest.2 j isOpen same with
    | later here there rank => exact ⟨_, _, there.1, Nat.le_trans (Nat.le_of_lt rank) (here.2 r x violated)⟩
    | milder here there _ | earlier here there _ _ => exact ⟨_, _, there.1, here.2 r x violated⟩

variable [Scale α]

theorem Blocks.isComparable (here : a.Blocks k r x) : IsComparable x := (Insertion.check_isGraded here.1.2).isComparable

/-- The lesser obstacle of two trials is the weaker one of their positions. -/
theorem compareObstacle_fullTrial (blocked : a.violations j ≠ []) (blocked' : a.violations k ≠ []) :
    Trial.compareObstacle (a.fullTrial j) (a.fullTrial k) = .lt ↔ a.Weaker j k := by
  obtain ⟨r, x, others, found, here⟩ := exists_blocks blocked
  obtain ⟨s, y, others', found', there⟩ := exists_blocks blocked'
  have compared : Trial.compareObstacle (a.fullTrial j) (a.fullTrial k)
      = ((compare s.rank r.rank).then (compareSeverity x y)).then (compare j k) := by
    simp only [Trial.compareObstacle, fullTrial, found, found']
  rw [compared, Ordering.then_eq_lt, Ordering.then_eq_lt, Ordering.then_eq_eq, Nat.compare_eq_lt, Nat.compare_eq_eq,
    Nat.compare_eq_lt, compareSeverity_eq_lt, compareSeverity_eq_eq here.isComparable there.isComparable]
  constructor
  · rintro ((rank | ⟨rank, milder⟩) | ⟨⟨rank, level⟩, before⟩)
    · exact .later here there rank
    · obtain rfl := Reason.eq_of_rank_eq rank
      exact .milder here there milder
    · obtain rfl := Reason.eq_of_rank_eq rank
      exact .earlier here there level before
  · intro weaker
    cases weaker with
    | later here' there' rank =>
      rw [(here.unique here').1, (there.unique there').1]
      exact Or.inl (Or.inl rank)
    | milder here' there' milder =>
      rw [(here.unique here').1, (there.unique there').1, (here.unique here').2, (there.unique there').2]
      exact Or.inl (Or.inr ⟨rfl, milder⟩)
    | earlier here' there' level before =>
      rw [(here.unique here').1, (there.unique there').1, (here.unique here').2, (there.unique there').2]
      exact Or.inr ⟨⟨rfl, level⟩, before⟩

theorem Weaker.trans (ij : a.Weaker i j) (jk : a.Weaker j k) : a.Weaker i k := by
  cases ij with
  | later here mid rank =>
    cases jk with
    | later mid' there rank' =>
      obtain ⟨rfl, rfl⟩ := mid.unique mid'
      exact .later here there (Nat.lt_trans rank' rank)
    | milder mid' there _ | earlier mid' there _ _ =>
      obtain ⟨rfl, rfl⟩ := mid.unique mid'
      exact .later here there rank
  | milder here mid milder =>
    cases jk with
    | later mid' there rank' =>
      obtain ⟨rfl, rfl⟩ := mid.unique mid'
      exact .later here there rank'
    | milder mid' there milder' =>
      obtain ⟨rfl, rfl⟩ := mid.unique mid'
      exact .milder here there (milder.trans milder')
    | earlier mid' there level' before' =>
      obtain ⟨rfl, rfl⟩ := mid.unique mid'
      exact .milder here there (milder.trans_not here.isComparable mid.isComparable there.isComparable level'.2)
  | earlier here mid level before =>
    cases jk with
    | later mid' there rank' =>
      obtain ⟨rfl, rfl⟩ := mid.unique mid'
      exact .later here there rank'
    | milder mid' there milder' =>
      obtain ⟨rfl, rfl⟩ := mid.unique mid'
      exact .milder here there (milder'.not_trans here.isComparable mid.isComparable there.isComparable level.2)
    | earlier mid' there level' before' =>
      obtain ⟨rfl, rfl⟩ := mid.unique mid'
      have level'' := level.trans here.isComparable mid.isComparable there.isComparable level'
      exact .earlier here there level'' (Nat.lt_trans before before')

theorem not_weaker_self (a : Attempt α) (k : Nat) : ¬a.Weaker k k := by
  intro weaker
  cases weaker with
  | later here there rank =>
    rw [(here.unique there).1] at rank
    exact Nat.lt_irrefl _ rank
  | milder here there milder =>
    rw [(here.unique there).2] at milder
    exact milder.asymm milder
  | earlier here there level before => exact Nat.lt_irrefl _ before

end

end Attempt

namespace Evaluator

/-- In the hasty mode, whatever is checked and whatever the job and the route, once some position is open but none is
without violations, the evaluation of the vehicle is not stopped but by areas that cannot be judged. Just one of the open
positions has the weakest obstacle, and what is shown is all violations at this one; and each open position violates a
constraint that is as fundamental as any that is shown. -/
theorem shows_weakest [Scale α] (e : Evaluator α) (job : Job α) (state : RouteState α)
    (hasty : e.settings.exhaustive = false) (gated : ∃ k, (e.attempt job state).IsOpen k)
    (blocked : ∀ k, (e.attempt job state).IsOpen k → ∃ r severity, (e.attempt job state).Violates k r severity) :
    ((∃ out, (e.evaluateVehicle job state).outcome = .ok out) ↔ (e.attempt job state).JudgesAreas)
      ∧ (∃! k, (e.attempt job state).IsWeakest k)
      ∧ ∀ k, (e.attempt job state).IsWeakest k → ∀ out, (e.evaluateVehicle job state).outcome = .ok out →
        out.unreachable = false ∧ out.feasible = false ∧ out.records ≠ []
        ∧ (e.attempt job state).Records k out.records
        ∧ ∀ record ∈ out.records, ∀ j, (e.attempt job state).IsOpen j →
          ∃ r severity, (e.attempt job state).Violates j r severity ∧ r.rank ≤ record.code.rank := by
  have blocked' : ∀ k, (e.attempt job state).IsOpen k → (e.attempt job state).violations k ≠ [] := by
    intro k isOpen none
    obtain ⟨r, severity, violated⟩ := blocked k isOpen
    exact Attempt.violations_eq_nil.mp none r severity violated
  have mode : (e.attempt job state).exhaustive = false := hasty
  obtain ⟨k, weakest, unique, chosen⟩ := Attempt.exists_outcomeBy gated
    (fun j hj k hk => Attempt.compareObstacle_fullTrial (blocked' j hj) (blocked' k hk)) (Attempt.not_weaker_self _)
    (fun _ _ _ => Attempt.Weaker.trans) fun j hj k hk => Attempt.weaker_or_weaker (blocked' j hj) (blocked' k hk)
  refine ⟨Attempt.exists_survey_iff_judgesAreas gated, ⟨k, weakest, unique⟩, ?_⟩
  intro j weakest' out ok
  obtain rfl : j = k := unique j weakest'
  have shown := Attempt.survey_eq_ok ok
  rw [mode] at shown
  have some_left := blocked' j weakest.1
  have records := Attempt.records_fullTrial (e.attempt job state) j
  rw [shown.trans chosen]
  refine ⟨rfl, by simp [Attempt.outcomeOf, Trial.isFree, Attempt.fullTrial, some_left], ?_, records, ?_⟩
  · simpa [Attempt.outcomeOf, Trial.records, Attempt.fullTrial] using some_left
  · intro record member i isOpen
    obtain ⟨r, severity, violated, rfl⟩ := (records.mem_iff record).mp member
    exact Attempt.IsWeakest.exists_rank_le weakest violated isOpen

/-- Before the delivery the lift is too much for the van, after it the order is wrong, which is less fundamental. -/
theorem violations_lift :
    ((vanEvaluator.inMode false).attempt lift vanRoute).violations 0 = [(.capacity, some (.finite 4))]
      ∧ ((vanEvaluator.inMode false).attempt lift vanRoute).violations 1
        = [(.locking, none), (.priority, some (.finite 1))] := by
  decide +kernel

theorem isWeakest_lift : ((vanEvaluator.inMode false).attempt lift vanRoute).IsWeakest 1 := by
  have listed : 1 ∈ ((vanEvaluator.inMode false).attempt lift vanRoute).gate := by
    rw [gate_lift]
    simp
  refine ⟨Attempt.mem_gate.mp listed, fun j isOpen differ => ?_⟩
  have listed' := Attempt.mem_gate.mpr isOpen
  rw [gate_lift] at listed'
  obtain rfl : j = 0 := by simp at listed'; omega
  exact .later (Attempt.blocks_of_cons violations_lift.2) (Attempt.blocks_of_cons violations_lift.1) (by decide)

theorem shows_weakest_van :
    (vanEvaluator.inMode false).settings.exhaustive = false
      ∧ (∃ k, ((vanEvaluator.inMode false).attempt lift vanRoute).IsOpen k)
      ∧ (∀ k, ((vanEvaluator.inMode false).attempt lift vanRoute).IsOpen k →
        ∃ r severity, ((vanEvaluator.inMode false).attempt lift vanRoute).Violates k r severity)
      ∧ ∀ out, ((vanEvaluator.inMode false).evaluateVehicle lift vanRoute).outcome = .ok out →
        out.records ≠ [] ∧ ((vanEvaluator.inMode false).attempt lift vanRoute).Records 1 out.records := by
  have gated : ∃ k, ((vanEvaluator.inMode false).attempt lift vanRoute).IsOpen k := ⟨1, isWeakest_lift.1⟩
  have blocked : ∀ k, ((vanEvaluator.inMode false).attempt lift vanRoute).IsOpen k →
      ∃ r severity, ((vanEvaluator.inMode false).attempt lift vanRoute).Violates k r severity := by
    intro k isOpen
    have listed := Attempt.mem_gate.mpr isOpen
    rw [gate_lift] at listed
    rcases List.mem_cons.mp listed with rfl | listed
    · exact ⟨.capacity, some (.finite 4), Attempt.mem_violations.mp (by simp [violations_lift.1])⟩
    · obtain rfl := List.mem_singleton.mp listed
      exact ⟨.locking, none, Attempt.mem_violations.mp (by simp [violations_lift.2])⟩
  refine ⟨rfl, gated, blocked, fun out ok => ?_⟩
  obtain ⟨-, -, shows⟩ := (vanEvaluator.inMode false).shows_weakest lift vanRoute rfl gated blocked
  obtain ⟨-, -, some_left, records, -⟩ := shows 1 isWeakest_lift out ok
  exact ⟨some_left, records⟩

end Evaluator

end Leftover
