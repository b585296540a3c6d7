/-
# Severities

A violation that can be measured is measured by something above zero. So zero, which stands for a constraint that is
kept, is milder than every violation.

* `Evidence.IsGraded` : a severity is above zero, if there is one
* `Insertion.check_isGraded` : the evidence of every check is of this kind
* `compareSeverity_zero` : such a severity compared with zero
-/
import Leftover.Check.Catalog
import Leftover.Proofs.Outcome
import Leftover.Proofs.Scale

namespace Leftover

/-! ## Evidence -/

namespace Evidence

variable {α : Type} [Quantity α]

/-- A severity is above zero, if there is one. -/
def IsGraded (e : Evidence α) : Prop := ∀ x, e.severity = some x → 0 < x

theorem IsGraded.of_ok {e e' : Evidence α} (graded : e.IsGraded) (said : (.ok e : Except Fault (Evidence α)) = .ok e') :
    e'.IsGraded := Except.ok.inj said ▸ graded

theorem isGraded_satisfied : (satisfied : Evidence α).IsGraded := fun _ measured => absurd measured (by simp [severity])

theorem isGraded_unmeasured : (violated none : Evidence α).IsGraded :=
  fun _ measured => absurd measured (by simp [severity])

theorem isGraded_of_pos {x : α} (positive : 0 < x) : (violated (some x)).IsGraded := by
  intro y measured
  rw [← Option.some.inj measured]
  exact positive

theorem isGraded_ofKept (kept : Bool) : (ofKept kept : Evidence α).IsGraded := by
  cases kept with
  | true => exact isGraded_satisfied
  | false => exact isGraded_unmeasured

theorem isGraded_ofExcess (excess : α) : (ofExcess excess).IsGraded := by
  unfold ofExcess
  split
  · rename_i positive
    exact isGraded_of_pos positive
  · exact isGraded_satisfied

end Evidence

/-! ## Checks -/

namespace Insertion

section

variable {α : Type} [Quantity α] {i : Insertion α} {e : Evidence α}

theorem onSchedule_isGraded {judge : Schedule α → Except Fault (Evidence α)}
    (graded : ∀ schedule e, judge schedule = .ok e → e.IsGraded) (said : i.onSchedule judge = .ok e) : e.IsGraded := by
  obtain ⟨schedule, -, said⟩ := except_bind_eq_ok.mp said
  split at said
  · exact graded schedule e said
  · exact Evidence.isGraded_satisfied.of_ok said

theorem checkTimeWindow_isGraded (said : i.checkTimeWindow = .ok e) : e.IsGraded := by
  refine onSchedule_isGraded (fun schedule e said => ?_) said
  split at said
  · exact absurd said (by simp)
  · exact (Evidence.isGraded_ofExcess _).of_ok said

theorem checkCapacity_isGraded (said : i.checkCapacity = .ok e) : e.IsGraded := by
  obtain ⟨peak, -, said⟩ := except_bind_eq_ok.mp said
  exact (Evidence.isGraded_ofExcess _).of_ok said

theorem checkReachable_isGraded (said : i.checkReachable = .ok e) : e.IsGraded := by
  obtain ⟨before, -, said⟩ := except_bind_eq_ok.mp said
  obtain ⟨after, -, said⟩ := except_bind_eq_ok.mp said
  exact (Evidence.isGraded_ofKept _).of_ok said

theorem checkMaxDistance_isGraded (said : i.checkMaxDistance = .ok e) : e.IsGraded := by
  unfold checkMaxDistance at said
  split at said
  · exact Evidence.isGraded_satisfied.of_ok said
  · refine onSchedule_isGraded (fun schedule e said => ?_) said
    exact (Evidence.isGraded_ofExcess _).of_ok said

theorem checkShiftTime_isGraded (said : i.checkShiftTime = .ok e) : e.IsGraded := by
  refine onSchedule_isGraded (fun schedule e said => ?_) said
  split at said
  · exact (Evidence.isGraded_ofExcess _).of_ok said
  · exact (Evidence.isGraded_ofExcess _).of_ok said

theorem checkBreaks_isGraded (said : i.checkBreaks = .ok e) : e.IsGraded := by
  unfold checkBreaks at said
  split at said
  · exact Evidence.isGraded_satisfied.of_ok said
  · refine onSchedule_isGraded (fun schedule e said => ?_) said
    exact (Evidence.isGraded_ofExcess _).of_ok said

theorem checkArea_isGraded [Plane α] (said : i.checkArea = .ok e) : e.IsGraded := by
  simp only [checkArea] at said
  split at said
  · exact Evidence.isGraded_satisfied.of_ok said
  · split at said
    · exact (Evidence.isGraded_ofKept _).of_ok said
    · split at said
      · exact Evidence.isGraded_satisfied.of_ok said
      · obtain ⟨covered, -, said⟩ := except_bind_eq_ok.mp said
        exact (Evidence.isGraded_ofKept _).of_ok said

theorem checkAfterDispatch_isGraded (said : i.checkAfterDispatch = .ok e) : e.IsGraded := by
  unfold checkAfterDispatch at said
  split at said
  · exact Evidence.isGraded_satisfied.of_ok said
  · obtain ⟨minutes, -, said⟩ := except_bind_eq_ok.mp said
    split at said
    · exact (Evidence.isGraded_ofExcess _).of_ok said
    · exact Evidence.isGraded_satisfied.of_ok said

end

section

variable {α : Type} [Quantity α] [Scale α] {i : Insertion α} {e : Evidence α}

theorem checkPriority_isGraded (said : i.checkPriority = .ok e) : e.IsGraded := by
  unfold checkPriority at said
  split at said
  · exact Evidence.isGraded_satisfied.of_ok said
  · rw [← Except.ok.inj said]
    split
    · exact Evidence.isGraded_satisfied
    · rename_i some_pair
      exact Evidence.isGraded_of_pos (Scale.ofNat_pos _ (Nat.pos_of_ne_zero some_pair))

theorem checkDispatch_isGraded (said : i.checkDispatch = .ok e) : e.IsGraded := by
  simp only [checkDispatch] at said
  split at said
  · exact Evidence.isGraded_satisfied.of_ok said
  · -- each of the differences is that of a value and a smaller one
    split at said
    · rename_i after_shift
      exact (Evidence.isGraded_of_pos (Scale.sub_pos_of_lt _ _ after_shift)).of_ok said
    · split at said
      · rename_i before_shift
        exact (Evidence.isGraded_of_pos (Scale.sub_pos_of_lt _ _ before_shift)).of_ok said
      · split at said
        · exact Evidence.isGraded_unmeasured.of_ok said
        · split at said
          · rename_i too_late
            exact (Evidence.isGraded_of_pos (Scale.sub_pos_of_lt _ _ too_late)).of_ok said
          · exact checkAfterDispatch_isGraded said

theorem checkTourSize_isGraded (said : i.checkTourSize = .ok e) : e.IsGraded := by
  unfold checkTourSize at said
  split at said
  · exact Evidence.isGraded_satisfied.of_ok said
  · split at said
    · exact (Evidence.isGraded_of_pos (Scale.ofNat_pos _ (by omega))).of_ok said
    · exact Evidence.isGraded_satisfied.of_ok said

/-- Whatever a check says, its severity is above zero if there is one. -/
theorem check_isGraded [Plane α] {r : Reason} (said : i.check r = .ok e) : e.IsGraded := by
  cases r with
  | unexplained => exact absurd said (by simp [check])
  | skill =>
    exact (Evidence.isGraded_ofKept _).of_ok said
  | timeWindow => exact checkTimeWindow_isGraded said
  | capacity => exact checkCapacity_isGraded said
  | reachable => exact checkReachable_isGraded said
  | maxDistance => exact checkMaxDistance_isGraded said
  | shiftTime => exact checkShiftTime_isGraded said
  | breaks => exact checkBreaks_isGraded said
  | locking =>
    exact (Evidence.isGraded_ofKept _).of_ok said
  | priority => exact checkPriority_isGraded said
  | area => exact checkArea_isGraded said
  | dispatch => exact checkDispatch_isGraded said
  | tourSize => exact checkTourSize_isGraded said

end

end Insertion

/-! ## Comparing severities -/

/-- Zero comes before the severity of a violation, and the severity after zero. -/
theorem compareSeverity_zero {α : Type} [Quantity α] [Scale α] {severity : Option α}
    (graded : (Evidence.violated severity).IsGraded) :
    compareSeverity (some 0) severity = .lt ∧ compareSeverity severity (some 0) = .gt := by
  cases severity with
  | none => exact ⟨rfl, rfl⟩
  | some x =>
    have positive : 0 < x := graded x rfl
    refine ⟨OrderedQuantity.compareQuantity_eq_lt.mpr positive, ?_⟩
    show (if Quantity.same x 0 then Ordering.eq else if x < 0 then Ordering.lt else Ordering.gt) = .gt
    rw [if_neg (by simp [Quantity.same, OrderedQuantity.not_le_of_lt positive]), if_neg (OrderedQuantity.lt_asymm positive)]

theorem Evidence.IsGraded.isComparable {α : Type} [Quantity α] [OrderedQuantity α] {severity : Option α}
    (graded : (Evidence.violated severity).IsGraded) : IsComparable severity :=
  fun x measured => (OrderedQuantity.isDefined_of_lt (graded x measured)).2

end Leftover
