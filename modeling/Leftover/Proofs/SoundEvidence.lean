/-
# Evidence that can be compared

A check says that a constraint is kept, or that it is violated: then the severity, if there is one, is above zero and
maybe infinite, but never undefined. Zero stands for a constraint that is kept. So whatever checks find stands in one
order after it, and so do the trials and the records that are made of it.

* `Evidence.IsSound` : evidence as checks give it
* `FoundSeverity`, `FoundTrial`, `FoundRecord` : what is compared, as checks find it
* `Insertion.check_isSound` : the evidence of every check, and the orders that rest on it
-/
import Leftover.Proofs.Modes

namespace Leftover

variable {α : Type} [Quantity α]

/-! ## Evidence -/

/-- Evidence without a violation has no severity, and a severity is a number above zero, or infinity. -/
structure Evidence.IsSound (e : Evidence α) : Prop where
  of_satisfied : e.isSatisfied = true → e.severity = none
  of_measured : ∀ x ∈ e.severity, 0 < x ∧ ¬x ≤ 0 ∧ Quantity.isUndefined x = false

theorem Evidence.IsGraded.isSound [OrderedQuantity α] {e : Evidence α} (graded : e.IsGraded) : e.IsSound where
  of_satisfied kept := by
    cases e with
    | satisfied => rfl
    | violated severity => exact absurd kept Bool.false_ne_true
  of_measured x measured := by
    have positive : 0 < x := graded x measured
    exact ⟨positive, OrderedQuantity.not_le_of_lt positive, (OrderedQuantity.isDefined_of_lt positive).2⟩

/-! ## What is compared -/

variable [Plane α]

/-- The check of a reason finds a violation of this severity, for some job at some position of some route. -/
def Reason.Finds (r : Reason) (severity : Option α) : Prop := ∃ i : Insertion α, i.check r = .ok (.violated severity)

/-- The severity of a violation that a check finds, or zero for a constraint that is kept. -/
def FoundSeverity (α : Type) [Quantity α] [Plane α] : Type :=
  {severity : Option α // severity = some 0 ∨ ∃ r : Reason, r.Finds severity}

/-- A trial of violations that checks find. -/
def FoundTrial (α : Type) [Quantity α] [Plane α] : Type :=
  {t : Trial α // ∀ violation ∈ t.violations, violation.1.Finds violation.2}

/-- A record of a violation that a check finds. -/
def FoundRecord (α : Type) [Quantity α] [Plane α] : Type :=
  {record : Record α // ∃ severity, record.evidence = .violated severity ∧ record.code.Finds severity}

/-- The trials of a job on a route, complete or not, are of violations that checks find. -/
def Attempt.foundTrial (a : Attempt α) (hasty : Bool) (k : Nat) : FoundTrial α :=
  ⟨if hasty then a.hastyTrial k else a.fullTrial k, by
    intro violation listed
    have member : violation ∈ a.violations k := by
      cases hasty with
      | true => exact List.mem_of_mem_take listed
      | false => exact listed
    exact ⟨a.insertion k, (mem_violations.mp member).2⟩⟩

/-! ## The orders -/

/-- An order of some things, told by what they are mapped to. -/
theorem transCmp_comap {β γ : Type} (f : β → γ) (order : γ → γ → Ordering) [Std.TransCmp order] :
    Std.TransCmp fun x y => order (f x) (f y) where
  eq_swap := Std.OrientedCmp.eq_swap
  isLE_trans := Std.TransCmp.isLE_trans

namespace FoundSeverity

/-- The order of severities. -/
def order (x y : FoundSeverity α) : Ordering := compareSeverity x.1 y.1

theorem compareSeverities_map (xs ys : List (FoundSeverity α)) :
    compareSeverities (xs.map (·.1)) (ys.map (·.1)) = List.compareLex order xs ys := by
  induction xs generalizing ys with
  | nil => cases ys <;> rfl
  | cons x xs ih =>
    cases ys with
    | nil => rfl
    | cons y ys =>
      rw [List.map_cons, List.map_cons, compareSeverities, List.compareLex_cons_cons, ih]
      rfl

variable [Scale α]

theorem isComparable (x : FoundSeverity α) : IsComparable x.1 := by
  rcases x.2 with zero | ⟨r, i, found⟩
  · rw [zero]
    exact fun y same => Option.some.inj same ▸ Scale.isUndefined_zero
  · exact (Insertion.check_isGraded found).isComparable

theorem isLE_order {x y : FoundSeverity α} : (order x y).isLE = true ↔ ¬Milder y.1 x.1 := by
  rw [← compareSeverity_eq_gt x.isComparable y.isComparable, ← order]
  cases order x y <;> simp

instance : Std.TransCmp (order (α := α)) where
  eq_swap {x y} := by
    cases before : order y x with
    | lt => exact (compareSeverity_eq_gt x.isComparable y.isComparable).mpr (compareSeverity_eq_lt.mp before)
    | eq =>
      have level := (compareSeverity_eq_eq y.isComparable x.isComparable).mp before
      exact (compareSeverity_eq_eq x.isComparable y.isComparable).mpr ⟨level.2, level.1⟩
    | gt => exact compareSeverity_eq_lt.mpr ((compareSeverity_eq_gt y.isComparable x.isComparable).mp before)
  isLE_trans {x y z} xy yz := by
    rw [isLE_order] at xy yz ⊢
    exact not_milder_trans x.isComparable y.isComparable z.isComparable xy yz

end FoundSeverity

namespace FoundTrial

variable {t u : FoundTrial α} {r : Reason}

/-- The severity of a reason in a trial is that of a violation, unless the constraint is kept. -/
theorem severityOf_of_violated (violated : r ∈ t.1.violations.map (·.1)) : r.Finds (t.1.severityOf r) := by
  obtain ⟨violation, listed, rfl⟩ := List.mem_map.mp violated
  rw [Trial.severityOf]
  split
  · rename_i s severity found
    have same : s = violation.1 := by simpa using List.find?_some found
    exact same ▸ t.2 _ (List.mem_of_find?_eq_some found)
  · rename_i none
    exact absurd (decide_eq_true rfl) (List.find?_eq_none.mp none violation listed)

theorem severityOf_of_kept (kept : r ∉ t.1.violations.map (·.1)) : t.1.severityOf r = some 0 := by
  have none : t.1.violations.find? (·.1 = r) = none := by
    rw [List.find?_eq_none]
    intro violation listed same
    exact kept (List.mem_map.mpr ⟨violation, listed, by simpa using same⟩)
  rw [Trial.severityOf, none]

/-- The severity of a reason in a trial. -/
def severity (t : FoundTrial α) (r : Reason) : FoundSeverity α :=
  ⟨t.1.severityOf r, by
    by_cases violated : r ∈ t.1.violations.map (·.1)
    · exact Or.inr ⟨r, severityOf_of_violated violated⟩
    · exact Or.inl (severityOf_of_kept violated)⟩

/-- The severity of the first violation, zero if there is none. -/
def first (t : FoundTrial α) : FoundSeverity α :=
  ⟨(t.1.violations.head?.map (·.2)).getD (some 0), by
    cases found : t.1.violations with
    | nil => exact Or.inl rfl
    | cons violation rest => exact Or.inr ⟨violation.1, t.2 violation (by simp [found])⟩⟩

theorem compareClosest_eq (t u : FoundTrial α) :
    Trial.compareClosest t.1 u.1
      = compareLex (compareLex (compareOn fun t : FoundTrial α => t.1.violations.length)
          fun t u => List.compareLex FoundSeverity.order (priorityOrder.map t.severity) (priorityOrder.map u.severity))
        (compareOn fun t : FoundTrial α => t.1.position) t u := by
  simp only [compareLex, ← FoundSeverity.compareSeverities_map, List.map_map]
  rfl

variable [Scale α]

/-- Of two trials the one with the lower hurdle comes first, then the one where it is milder, then the one at the earlier
position. -/
theorem compareObstacle_eq (t u : FoundTrial α) :
    Trial.compareObstacle t.1 u.1
      = compareLex (compareLex (compareOn fun t : FoundTrial α => t.1.hurdle) fun t u => FoundSeverity.order t.first u.first)
        (compareOn fun t : FoundTrial α => t.1.position) t u := by
  have bound := Reason.rank_le_length
  let zero : FoundSeverity α := ⟨some 0, Or.inl rfl⟩
  have level : FoundSeverity.order zero zero = .eq := Std.ReflCmp.compare_self
  have level : compareSeverity (some (0 : α)) (some 0) = .eq := level
  simp only [compareLex, compareOn, FoundSeverity.order, first, Trial.compareObstacle, Trial.hurdle]
  -- without violations the hurdle is zero, and with one it is the higher the more fundamental the reason is
  cases ht : t.1.violations with
  | nil =>
    cases hu : u.1.violations with
    | nil => simp [level]
    | cons violation rest =>
      have lower : compare 0 (priorityOrder.length + 1 - violation.1.rank) = .lt := by
        rw [Nat.compare_eq_lt]
        have := bound violation.1
        omega
      simp [lower]
  | cons violation rest =>
    have above := bound violation.1
    cases hu : u.1.violations with
    | nil =>
      have higher : compare (priorityOrder.length + 1 - violation.1.rank) 0 = .gt := by
        rw [Nat.compare_eq_gt]
        omega
      simp [higher]
    | cons violation' rest' =>
      have above' := bound violation'.1
      have ranks : compare violation'.1.rank violation.1.rank
          = compare (priorityOrder.length + 1 - violation.1.rank) (priorityOrder.length + 1 - violation'.1.rank) := by
        rw [Nat.compare_eq_ite_lt, Nat.compare_eq_ite_lt]
        congr 1
        · rw [eq_iff_iff]
          omega
        · congr 1
          rw [eq_iff_iff]
          omega
      simp [ranks]

instance : Std.TransCmp fun t u : FoundTrial α => Trial.compareClosest t.1 u.1 := by
  have severities := transCmp_comap (fun t : FoundTrial α => priorityOrder.map t.severity)
    (List.compareLex FoundSeverity.order)
  simp only [compareClosest_eq]
  infer_instance

instance : Std.TransCmp fun t u : FoundTrial α => Trial.compareObstacle t.1 u.1 := by
  have severities := transCmp_comap (first (α := α)) FoundSeverity.order
  simp only [compareObstacle_eq]
  infer_instance

end FoundTrial

namespace FoundRecord

/-- The severity of a record. -/
def severity (record : FoundRecord α) : FoundSeverity α :=
  ⟨record.1.evidence.severity, by
    obtain ⟨severity, violated, found⟩ := record.2
    rw [violated]
    exact Or.inr ⟨record.1.code, found⟩⟩

instance [Scale α] (policy : TieBreak) (fleet : List Text) :
    Std.TransCmp fun a b : FoundRecord α => compareCandidate policy fleet a.1 b.1 := by
  have severities := transCmp_comap (severity (α := α)) FoundSeverity.order
  cases policy with
  | fleetOrder =>
    exact inferInstanceAs (Std.TransCmp (compareOn fun a : FoundRecord α => placeIn fleet a.1.vehicleId))
  | nearestMiss =>
    exact inferInstanceAs (Std.TransCmp (compareLex (fun a b : FoundRecord α => FoundSeverity.order a.severity b.severity)
      (compareOn fun a : FoundRecord α => placeIn fleet a.1.vehicleId)))

end FoundRecord

/-! ## Checks -/

/-- Whatever a check says of whatever insertion: either the constraint is kept, without a severity, or its severity is a
number above zero or infinity, if there is one. So zero, which stands for a constraint that is kept, comes strictly
before every violation that a check finds, also in two trials of which the one violates the constraint and the other one
does not. Whatever checks find is ordered by size, what cannot be measured after the rest; and so the trials of a survey
stand in one order, in either mode, as the records of violations do that a resolution chooses from. -/
theorem Insertion.check_isSound [Scale α] :
    (∀ (i : Insertion α) (r : Reason) (e : Evidence α), i.check r = .ok e → e.IsSound)
      ∧ (∀ (r : Reason) (severity : Option α), r.Finds severity →
        compareSeverity (some 0) severity = .lt ∧ compareSeverity severity (some 0) = .gt)
      ∧ (∀ (t u : FoundTrial α) (r : Reason), r ∈ t.1.violations.map (·.1) → r ∉ u.1.violations.map (·.1) →
        compareSeverity (u.1.severityOf r) (t.1.severityOf r) = .lt)
      ∧ (∀ x y : FoundSeverity α, (compareSeverity x.1 y.1 = .lt ↔ Milder x.1 y.1)
        ∧ (compareSeverity x.1 y.1 = .gt ↔ Milder y.1 x.1))
      ∧ (Std.TransCmp fun x y : FoundSeverity α => compareSeverity x.1 y.1)
      ∧ (Std.TransCmp fun t u : FoundTrial α => Trial.compareClosest t.1 u.1)
      ∧ (Std.TransCmp fun t u : FoundTrial α => Trial.compareObstacle t.1 u.1)
      ∧ ∀ (policy : TieBreak) (fleet : List Text),
        Std.TransCmp fun a b : FoundRecord α => compareCandidate policy fleet a.1 b.1 := by
  have above (r : Reason) (severity : Option α) (found : r.Finds severity) :
      compareSeverity (some 0) severity = .lt ∧ compareSeverity severity (some 0) = .gt := by
    obtain ⟨i, said⟩ := found
    exact compareSeverity_zero (check_isGraded said)
  refine ⟨fun i r e said => (check_isGraded said).isSound, above, fun t u r violated kept => ?_,
    fun x y => ⟨compareSeverity_eq_lt, compareSeverity_eq_gt x.isComparable y.isComparable⟩,
    inferInstanceAs (Std.TransCmp FoundSeverity.order), inferInstance, inferInstance, fun policy fleet => inferInstance⟩
  rw [FoundTrial.severityOf_of_kept kept]
  exact (above r _ (FoundTrial.severityOf_of_violated violated)).1

open Evaluator in
/-- Before the delivery of the crate the lift is too much for the van by four; after it that constraint is kept, and the
order is wrong instead. -/
theorem Insertion.check_isSound_van :
    ((vanEvaluator.attempt lift vanRoute).insertion 0).check .capacity = .ok (.violated (some (.finite 4)))
      ∧ (Evidence.violated (some (Exact.finite 4))).IsSound
      ∧ compareSeverity (some 0) (some (Exact.finite 4)) = .lt
      ∧ compareSeverity (((vanEvaluator.attempt lift vanRoute).foundTrial false 1).1.severityOf .capacity)
        (((vanEvaluator.attempt lift vanRoute).foundTrial false 0).1.severityOf .capacity) = .lt := by
  obtain ⟨sound, above, apart, -⟩ := Insertion.check_isSound (α := Exact)
  have said : ((vanEvaluator.attempt lift vanRoute).insertion 0).check .capacity = .ok (.violated (some (.finite 4))) := by
    decide +kernel
  exact ⟨said, sound _ _ _ said, (above .capacity _ ⟨_, said⟩).1,
    apart _ _ .capacity (by decide +kernel) (by decide +kernel)⟩

end Leftover
