/-
# The warnings of a survey

A survey asks for the positions that are open, and then asks constraints at those only. So it warns about a constraint
only if it has no answer at an open position.

* `Attempt.consult_warnsOnly` : the warning about one constraint
* `Attempt.survey_warnsOnly` : a survey warns as the constraints do that it asks at open positions
* `Attempt.survey_warnings` : what its warnings are about
-/
import Leftover.Proofs.Survey

namespace Leftover

variable {α : Type} [Quantity α] [Plane α]

namespace Attempt

variable {a : Attempt α} {P : Warning α → Prop}

/-- Asking a constraint gives a warning only if it has no answer. -/
theorem consult_warnsOnly {k : Nat} {r : Reason}
    (failed : ∀ fault, (a.insertion k).check r = .error fault → P (.notEvaluable r a.job.id a.state.vehicle.id k)) :
    (a.consult k r).WarnsOnly P := by
  rw [consult]
  cases said : (a.insertion k).check r with
  | ok evidence => exact Observed.warnsOnly_pure _
  | error fault =>
    dsimp only
    split
    · exact Observed.warnsOnly_ofExcept _
    · intro w member
      obtain rfl : w = .notEvaluable r a.job.id a.state.vehicle.id k := List.mem_singleton.mp member
      exact failed fault said

/-- Which positions are open is told without a warning. -/
theorem openPositions_warnsOnly (a : Attempt α) : a.openPositions.WarnsOnly P := by
  have asked : ∀ positions : List Nat, (∀ k ∈ positions, k ≤ a.state.jobs.length) →
      (a.openAmong positions).WarnsOnly P := by
    intro positions inside
    induction positions with
    | nil => exact Observed.warnsOnly_pure _
    | cons k rest ih =>
      rw [List.forall_mem_cons] at inside
      refine (consult_warnsOnly fun fault failed => ?_).bind fun _ _ => (ih inside.2).bind fun _ _ =>
        Observed.warnsOnly_pure _
      obtain ⟨kept, answered⟩ := Insertion.checkReachable_eq_ok (i := a.insertion k) rfl inside.1
      have answered : (a.insertion k).check .reachable = .ok (.ofKept kept) := answered
      exact absurd (failed.symm.trans answered) (by simp)
  rw [openPositions]
  split
  · refine asked _ fun k listed => ?_
    rw [RouteState.positions, List.mem_range] at listed
    exact Nat.le_of_lt_succ listed
  · exact Observed.warnsOnly_pure _

/-- A trial is made at its position. -/
theorem position_of_trialOf {known : Known α} {hasty : Bool} {k : Nat} {reasons : List Reason} {t : Trial α}
    (made : (a.trialOf known hasty k reasons).outcome = .ok t) : t.position = k := by
  induction reasons generalizing t with
  | nil =>
    obtain rfl := Except.ok.inj made
    rfl
  | cons r rest ih =>
    rw [trialOf, Observed.outcome_bind] at made
    obtain ⟨evidence, -, made⟩ := except_bind_eq_ok.mp made
    split at made
    · split at made
      · obtain rfl := Except.ok.inj made
        rfl
      · rw [Observed.outcome_bind] at made
        obtain ⟨others, tried, same⟩ := except_bind_eq_ok.mp made
        obtain rfl := Except.ok.inj same
        show others.position = k
        exact ih tried
    · exact ih made

/-- Trials are made at their positions, one at each. -/
theorem positions_of_trialsAt {known : Known α} {hasty : Bool} {positions : List Nat} {made : List (Trial α)}
    (done : (a.trialsAt known hasty positions).outcome = .ok made) : made.map (·.position) = positions := by
  induction positions generalizing made with
  | nil =>
    obtain rfl := Except.ok.inj done
    rfl
  | cons k rest ih =>
    rw [trialsAt, Observed.outcome_bind] at done
    obtain ⟨t, first, done⟩ := except_bind_eq_ok.mp done
    rw [Observed.outcome_bind] at done
    obtain ⟨others, later, same⟩ := except_bind_eq_ok.mp done
    obtain rfl := Except.ok.inj same
    rw [List.map_cons, position_of_trialOf first, ih later]

section

variable {positions : List Nat}
  (asked : ∀ k ∈ positions, ∀ r ∈ a.catalog.reasons, (a.consult k r).WarnsOnly P)

include asked

theorem consultAll_warnsOnly {k : Nat} (listed : k ∈ positions) {reasons : List Reason}
    (checked : ∀ r ∈ reasons, r ∈ a.catalog.reasons) : (a.consultAll k reasons).WarnsOnly P := by
  induction reasons with
  | nil => exact Observed.warnsOnly_pure _
  | cons r rest ih =>
    rw [List.forall_mem_cons] at checked
    exact (asked k listed r checked.1).bind fun _ _ => (ih checked.2).bind fun _ _ => Observed.warnsOnly_pure _

theorem trialOf_warnsOnly (known : Known α) (hasty : Bool) {k : Nat} (listed : k ∈ positions) {reasons : List Reason}
    (checked : ∀ r ∈ reasons, r ∈ a.catalog.reasons) : (a.trialOf known hasty k reasons).WarnsOnly P := by
  induction reasons with
  | nil => exact Observed.warnsOnly_pure _
  | cons r rest ih =>
    rw [List.forall_mem_cons] at checked
    have recalled : (a.recalled known k r).WarnsOnly P := by
      rw [Attempt.recalled]
      split
      · exact Observed.warnsOnly_pure _
      · exact asked k listed r checked.1
    refine recalled.bind fun evidence _ => ?_
    split
    · split
      · exact Observed.warnsOnly_pure _
      · exact (ih checked.2).bind fun _ _ => Observed.warnsOnly_pure _
    · exact ih checked.2

theorem trial_warnsOnly (known : Known α) (hasty : Bool) {k : Nat} (listed : k ∈ positions) :
    (a.trial known hasty k).WarnsOnly P :=
  trialOf_warnsOnly asked known hasty listed fun _ member => (List.mem_filter.mp member).1

theorem trialsAt_warnsOnly (known : Known α) (hasty : Bool) {tried : List Nat}
    (listed : ∀ k ∈ tried, k ∈ positions) : (a.trialsAt known hasty tried).WarnsOnly P := by
  induction tried with
  | nil => exact Observed.warnsOnly_pure _
  | cons k rest ih =>
    rw [List.forall_mem_cons] at listed
    exact (trial_warnsOnly asked known hasty listed.1).bind fun _ _ => (ih listed.2).bind fun _ _ =>
      Observed.warnsOnly_pure _

theorem trials_warnsOnly (known : Known α) : (a.trials known positions).WarnsOnly P := by
  rw [trials]
  split
  · exact trialsAt_warnsOnly asked known false fun _ listed => listed
  · refine (trialsAt_warnsOnly asked known true fun _ listed => listed).bind fun hasty made => ?_
    refine (Observed.warnsOnly_ofExcept _).bind fun least found => ?_
    split
    · exact Observed.warnsOnly_pure _
    · -- the position that is tried again is one of those that were tried before
      have again : least.position ∈ positions := by
        rw [← positions_of_trialsAt made]
        cases hasty with
        | nil => exact absurd found (by simp [Trial.nearest])
        | cons t rest =>
          obtain rfl := Except.ok.inj found
          exact List.mem_map_of_mem (firstLeast_mem Trial.compareObstacle t rest)
      exact (trial_warnsOnly asked known false again).bind fun _ _ => Observed.warnsOnly_pure _

end

/-- A survey warns as the constraints do that it asks at open positions. -/
theorem survey_warnsOnly (asked : ∀ k, a.IsOpen k → ∀ r ∈ a.catalog.reasons, (a.consult k r).WarnsOnly P) :
    (survey a).WarnsOnly P := by
  refine a.openPositions_warnsOnly.bind fun gate found => ?_
  obtain rfl : a.gate = gate := Except.ok.inj (a.openPositions_outcome.symm.trans found)
  have asked : ∀ k ∈ a.gate, ∀ r ∈ a.catalog.reasons, (a.consult k r).WarnsOnly P :=
    fun k listed => asked k (mem_gate.mp listed)
  split
  · exact Observed.warnsOnly_pure _
  · rename_i first rest gate_eq
    rw [gate_eq] at asked
    have known : (a.consultAll first a.catalog.routeWide).WarnsOnly P :=
      consultAll_warnsOnly asked List.mem_cons_self fun _ member => (List.mem_filter.mp member).1
    have shown : (a.shown first rest).WarnsOnly P :=
      known.bind fun _ _ => (trials_warnsOnly asked _).bind fun _ _ => Observed.warnsOnly_ofExcept _
    exact shown.bind fun _ _ => Observed.warnsOnly_pure _

/-- A warning about a constraint that is checked and has no answer at an open position. -/
inductive Unjudged (a : Attempt α) : Warning α → Prop where
  | intro {k : Nat} {r : Reason} {fault : Fault} (isOpen : a.IsOpen k) (checked : r ∈ a.catalog.reasons)
    (failed : (a.insertion k).check r = .error fault) : Unjudged a (.notEvaluable r a.job.id a.state.vehicle.id k)

/-- All warnings of a survey are about constraints that have no answer at an open position. -/
theorem survey_warnings (a : Attempt α) : ∀ w ∈ (survey a).warnings, a.Unjudged w :=
  survey_warnsOnly fun _ isOpen _ checked => consult_warnsOnly fun _ failed => .intro isOpen checked failed

end Attempt

end Leftover
