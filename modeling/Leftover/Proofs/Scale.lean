/-
# Scales

Severities are compared as numbers, and most of them are differences. What the order of severities rests on is gathered
here as laws of the numbers that they are measured in. The laws hold of exact numbers, and also of doubles.

* `OrderedQuantity` : a type of numbers in which those that are not undefined are ordered one after the other
* `OrderedQuantity.isGreatest_largest` : the largest of some values
* `Scale` : the same, with differences and counts above zero
* `Lossless` : the same, with sums that nothing is lost in
* `Milder`, `SameSeverity` : the order of severities, and those at the same place
* `compareSeverity_eq_lt`, `compareSeverity_eq_eq`, `compareSeverity_eq_gt` : what comparing two severities tells
* `compareSeverity_zero` : a severity above zero compared with zero
-/
import Leftover.Diagnosis.Severity
import Leftover.Proofs.ExactOrder
import Mathlib.Order.Bounds.Basic

namespace Leftover

/-! ## Laws of order -/

/-- A type of numbers in which those that are not undefined are ordered one after the other. -/
class OrderedQuantity (α : Type) [Quantity α] : Prop where
  isDefined_of_le (x y : α) : x ≤ y → Quantity.isUndefined x = false ∧ Quantity.isUndefined y = false
  not_lt_iff (x y : α) : Quantity.isUndefined x = false → Quantity.isUndefined y = false → (¬y < x ↔ x ≤ y)
  le_of_lt (x y : α) : x < y → x ≤ y
  le_trans (x y z : α) : x ≤ y → y ≤ z → x ≤ z

/-- An ordered type of numbers in which zero is a number, what exceeds a value does so by a difference above zero, and a
count of some things is above zero. -/
class Scale (α : Type) [Quantity α] : Prop extends OrderedQuantity α where
  isUndefined_zero : Quantity.isUndefined (0 : α) = false
  sub_pos_of_lt (x y : α) : x < y → 0 < y - x
  ofNat_pos (n : Nat) : 0 < n → (0 : α) < Quantity.ofNat n

theorem Exact.isUndefined_eq_false {x : Exact} : Quantity.isUndefined x = false ↔ x.IsDefined := by
  cases x with
  | undefined => exact iff_of_false (by decide) (by simp [IsDefined])
  | minusInfinity | finite a | plusInfinity => exact iff_of_true rfl (by simp [IsDefined])

theorem Quantity.same_iff {α : Type} [Quantity α] {x y : α} : same x y = true ↔ x ≤ y ∧ y ≤ x := by
  rw [same, Bool.and_eq_true, decide_eq_true_iff, decide_eq_true_iff]

theorem Exact.eq_of_same {x y : Exact} (tie : Quantity.same x y = true) : x = y := by
  rw [Quantity.same_iff] at tie
  exact Exact.le_antisymm tie.1 tie.2

theorem Exact.ofNat_pos {n : Nat} (h : 0 < n) : (0 : Exact) < Quantity.ofNat n := by
  show finite 0 < finite ((n : Int) : Rat)
  rw [finite_lt_finite]
  exact_mod_cast h

instance : Scale Exact where
  isDefined_of_le x y le := by
    rw [Exact.isUndefined_eq_false, Exact.isUndefined_eq_false]
    exact Exact.isDefined_of_le le
  not_lt_iff x y hx hy := Exact.not_lt (Exact.isUndefined_eq_false.mp hy) (Exact.isUndefined_eq_false.mp hx)
  le_of_lt _ _ := Exact.le_of_lt
  le_trans _ _ _ := Exact.le_trans
  isUndefined_zero := rfl
  sub_pos_of_lt _ _ := Exact.sub_pos_of_lt
  ofNat_pos _ := Exact.ofNat_pos

namespace OrderedQuantity

variable {α : Type} [Quantity α] [OrderedQuantity α] {x y z : α}

theorem isDefined_of_lt (lt : x < y) : Quantity.isUndefined x = false ∧ Quantity.isUndefined y = false :=
  isDefined_of_le x y (le_of_lt x y lt)

theorem lt_asymm (lt : x < y) : ¬y < x := by
  obtain ⟨hx, hy⟩ := isDefined_of_lt lt
  exact (not_lt_iff x y hx hy).mpr (le_of_lt x y lt)

theorem not_le_of_lt (lt : x < y) : ¬y ≤ x := by
  intro le
  obtain ⟨hx, hy⟩ := isDefined_of_lt lt
  exact (not_lt_iff y x hy hx).mpr le lt

theorem lt_trans (xy : x < y) (yz : y < z) : x < z := by
  by_contra not_lt
  have zx : z ≤ x := (not_lt_iff z x (isDefined_of_lt yz).2 (isDefined_of_lt xy).1).mp not_lt
  exact not_le_of_lt xy (le_trans y z x (le_of_lt y z yz) zx)

theorem lt_of_le_of_lt (xy : x ≤ y) (yz : y < z) : x < z := by
  by_contra not_lt
  obtain ⟨hx, -⟩ := isDefined_of_le _ _ xy
  exact not_le_of_lt yz (le_trans _ _ _ ((not_lt_iff z x (isDefined_of_lt yz).2 hx).mp not_lt) xy)

theorem le_refl (hx : Quantity.isUndefined x = false) : x ≤ x :=
  (not_lt_iff x x hx hx).mp fun lt => lt_asymm lt lt

theorem lt_of_not_le (hx : Quantity.isUndefined x = false) (hy : Quantity.isUndefined y = false) (not_le : ¬x ≤ y) :
    y < x := by
  by_contra not_lt
  exact not_le ((not_lt_iff x y hx hy).mp not_lt)

/-! ### The larger of two and the largest of some -/

omit [OrderedQuantity α] in
theorem larger_le {bound : α} (hx : x ≤ bound) (hy : y ≤ bound) : Quantity.larger x y ≤ bound := by
  rw [Quantity.larger]
  split
  · exact hy
  · exact hx

theorem le_larger_left (hx : Quantity.isUndefined x = false) (y : α) : x ≤ Quantity.larger x y := by
  rw [Quantity.larger]
  split
  · rename_i lt
    exact le_of_lt x y lt
  · exact le_refl hx

theorem le_larger_right (hx : Quantity.isUndefined x = false) (hy : Quantity.isUndefined y = false) :
    y ≤ Quantity.larger x y := by
  rw [Quantity.larger]
  split
  · exact le_refl hy
  · rename_i not_lt
    exact (not_lt_iff y x hy hx).mp not_lt

theorem larger_lt_iff (hx : Quantity.isUndefined x = false) (hy : Quantity.isUndefined y = false) :
    Quantity.larger x y < z ↔ x < z ∧ y < z := by
  constructor
  · exact fun lt => ⟨lt_of_le_of_lt (le_larger_left hx y) lt, lt_of_le_of_lt (le_larger_right hx hy) lt⟩
  · rintro ⟨xz, yz⟩
    rw [Quantity.larger]
    split
    · exact yz
    · exact xz

/-- The largest of some values is the greatest of them, if none of them is undefined. -/
theorem isGreatest_foldl_larger {xs : List α} (defined : ∀ z ∈ x :: xs, Quantity.isUndefined z = false) :
    IsGreatest {z | z ∈ x :: xs} (xs.foldl Quantity.larger x) := by
  induction xs generalizing x with
  | nil =>
    refine ⟨by simp, fun z listed => ?_⟩
    rw [List.mem_singleton.mp listed]
    exact le_refl (defined x (by simp))
  | cons y rest ih =>
    rw [List.forall_mem_cons, List.forall_mem_cons] at defined
    obtain ⟨hx, hy, hrest⟩ := defined
    have left := le_larger_left hx y
    have right := le_larger_right hx hy
    obtain ⟨member, above⟩ := ih (List.forall_mem_cons.mpr ⟨(isDefined_of_le _ _ left).2, hrest⟩)
    have first : Quantity.larger x y ≤ rest.foldl Quantity.larger (Quantity.larger x y) := above List.mem_cons_self
    constructor
    · rcases List.mem_cons.mp member with same | listed
      · rw [List.foldl_cons, same, Quantity.larger]
        split <;> simp
      · exact List.mem_cons_of_mem _ (List.mem_cons_of_mem _ listed)
    · intro z listed
      rcases List.mem_cons.mp listed with rfl | listed
      · exact le_trans _ _ _ left first
      rcases List.mem_cons.mp listed with rfl | listed
      · exact le_trans _ _ _ right first
      · exact above (List.mem_cons_of_mem _ listed)

theorem isGreatest_largest (fallback : α) {xs : List α} (some_there : xs ≠ [])
    (defined : ∀ z ∈ xs, Quantity.isUndefined z = false) : IsGreatest {z | z ∈ xs} (Quantity.largest fallback xs) := by
  cases xs with
  | nil => exact absurd rfl some_there
  | cons x rest => exact isGreatest_foldl_larger defined

/-! ### Comparing -/

theorem compareQuantity_eq_lt : compareQuantity x y = .lt ↔ x < y := by
  unfold compareQuantity Quantity.same
  constructor
  · intro before
    split at before
    · exact absurd before (by simp)
    · split at before
      · assumption
      · exact absurd before (by simp)
  · intro lt
    rw [decide_eq_false (not_le_of_lt lt), Bool.and_false, if_neg Bool.false_ne_true, if_pos lt]

theorem compareQuantity_eq_eq (hx : Quantity.isUndefined x = false) (hy : Quantity.isUndefined y = false) :
    compareQuantity x y = .eq ↔ ¬x < y ∧ ¬y < x := by
  rw [not_lt_iff x y hx hy, not_lt_iff y x hy hx, compareQuantity, Quantity.same]
  by_cases xy : x ≤ y
  · by_cases yx : y ≤ x
    · simp [xy, yx]
    · have lt : x < y := by
        by_contra not_lt
        exact yx ((not_lt_iff y x hy hx).mp not_lt)
      simp [xy, yx, lt]
  · have not_lt : ¬x < y := fun lt => xy (le_of_lt x y lt)
    simp [xy, not_lt]

end OrderedQuantity

/-! ## Sums that nothing is lost in -/

/-- A scale that is never left by adding, and on which what was added can be taken away again, and the other way round.
Exact numbers are like this; doubles are not, since their sums are rounded. -/
class Lossless (α : Type) [Quantity α] : Prop extends Scale α where
  isUndefined_of_isFinite (x : α) : Quantity.isFinite x = true → Quantity.isUndefined x = false
  isFinite_add_iff (x y : α) :
    Quantity.isFinite (x + y) = true ↔ Quantity.isFinite x = true ∧ Quantity.isFinite y = true
  add_sub_cancel (x y : α) : Quantity.isFinite y = true → x + y - y = x
  sub_add_cancel (x y : α) : Quantity.isFinite y = true → x - y + y = x
  add_lt_add_iff (x y z : α) : Quantity.isFinite z = true → (x + z < y + z ↔ x < y)
  sub_pos_iff (x y : α) : 0 < x - y ↔ y < x

instance : Lossless Exact where
  isUndefined_of_isFinite x finite := Exact.isUndefined_eq_false.mpr (Exact.isDefined_of_isFinite finite)
  isFinite_add_iff _ _ := Exact.isFinite_add_iff
  add_sub_cancel x y finite := by
    obtain ⟨a, rfl⟩ := Exact.isFinite_iff.mp finite
    exact Exact.add_finite_sub_finite x a
  sub_add_cancel x y finite := by
    obtain ⟨a, rfl⟩ := Exact.isFinite_iff.mp finite
    exact Exact.sub_finite_add_finite x a
  add_lt_add_iff x y z finite := by
    obtain ⟨a, rfl⟩ := Exact.isFinite_iff.mp finite
    exact Exact.add_finite_lt_add_finite
  sub_pos_iff _ _ := Exact.sub_pos_iff

namespace Lossless

variable {α : Type} [Quantity α] [Lossless α] {x y z : α}

theorem lt_sub_iff (finite : Quantity.isFinite z = true) : x < y - z ↔ x + z < y := by
  rw [← add_lt_add_iff x (y - z) z finite, sub_add_cancel y z finite]

theorem sub_right_inj (finite : Quantity.isFinite z = true) : x - z = y - z ↔ x = y := by
  refine ⟨fun same => ?_, fun same => by rw [same]⟩
  rw [← sub_add_cancel x z finite, same, sub_add_cancel y z finite]

end Lossless

/-! ## The order of severities -/

/-- A severity is milder than another: a measured one than a larger one, and than one without a measure. -/
inductive Milder {α : Type} [Quantity α] : Option α → Option α → Prop
  | measured {x y : α} (lt : x < y) : Milder (some x) (some y)
  | unmeasured {x : α} : Milder (some x) none

@[simp] theorem milder_some {α : Type} [Quantity α] {x y : α} : Milder (some x) (some y) ↔ x < y := by
  constructor
  · intro milder
    cases milder with
    | measured lt => exact lt
  · exact .measured

@[simp] theorem not_none_milder {α : Type} [Quantity α] {y : Option α} : ¬Milder none y := by
  rintro ⟨⟩

/-- Of two severities neither is milder than the other. -/
def AsSevere {α : Type} [Quantity α] (x y : Option α) : Prop := ¬Milder x y ∧ ¬Milder y x

/-- Two severities are the same: both of them without a measure, or measured by two numbers at the same place. -/
def SameSeverity {α : Type} [Quantity α] (x y : Option α) : Prop := Option.Rel (fun a b => Quantity.same a b = true) x y

theorem SameSeverity.eq {x y : Option Exact} (same : SameSeverity x y) : x = y := by
  cases same with
  | none => rfl
  | some tie => rw [Exact.eq_of_same tie]

/-- The severity is not undefined, if there is one. -/
def IsComparable {α : Type} [Quantity α] (severity : Option α) : Prop := ∀ x ∈ severity, Quantity.isUndefined x = false

section

variable {α : Type} [Quantity α] [OrderedQuantity α] {x y z : Option α}

theorem compareSeverity_eq_lt : compareSeverity x y = .lt ↔ Milder x y := by
  cases x with
  | none => cases y <;> exact iff_of_false (by simp [compareSeverity]) not_none_milder
  | some a =>
    cases y with
    | none => exact iff_of_true rfl .unmeasured
    | some b => rw [compareSeverity, OrderedQuantity.compareQuantity_eq_lt, milder_some]

theorem compareSeverity_eq_eq (hx : IsComparable x) (hy : IsComparable y) :
    compareSeverity x y = .eq ↔ AsSevere x y := by
  cases x with
  | none =>
    cases y with
    | none => exact iff_of_true rfl ⟨not_none_milder, not_none_milder⟩
    | some b => exact iff_of_false (by simp [compareSeverity]) fun level => level.2 .unmeasured
  | some a =>
    cases y with
    | none => exact iff_of_false (by simp [compareSeverity]) fun level => level.1 .unmeasured
    | some b =>
      rw [compareSeverity, OrderedQuantity.compareQuantity_eq_eq (hx a rfl) (hy b rfl), AsSevere, milder_some, milder_some]

/-- Of two severities at most one is milder than the other. -/
theorem Milder.asymm (before : Milder x y) : ¬Milder y x := by
  intro after
  cases before with
  | measured lt =>
    cases after with
    | measured lt' => exact OrderedQuantity.lt_asymm lt lt'
  | unmeasured => cases after

theorem Milder.trans (xy : Milder x y) (yz : Milder y z) : Milder x z := by
  cases xy with
  | measured lt =>
    cases yz with
    | measured lt' => exact .measured (OrderedQuantity.lt_trans lt lt')
    | unmeasured => exact .unmeasured
  | unmeasured => cases yz

theorem compareSeverity_eq_gt (hx : IsComparable x) (hy : IsComparable y) : compareSeverity x y = .gt ↔ Milder y x := by
  cases order : compareSeverity x y with
  | lt => exact iff_of_false (by simp) (compareSeverity_eq_lt.mp order).asymm
  | eq => exact iff_of_false (by simp) ((compareSeverity_eq_eq hx hy).mp order).2
  | gt =>
    refine iff_of_true rfl ?_
    by_contra not_milder
    have not_less : ¬Milder x y := by
      rw [← compareSeverity_eq_lt, order]
      simp
    have level := (compareSeverity_eq_eq hx hy).mpr ⟨not_less, not_milder⟩
    exact absurd (order.symm.trans level) (by simp)

/-- What is not milder than a severity is not milder than one that this one is not milder than. -/
theorem not_milder_trans (hx : IsComparable x) (hy : IsComparable y) (hz : IsComparable z) (yx : ¬Milder y x)
    (zy : ¬Milder z y) : ¬Milder z x := by
  intro zx
  cases y with
  | none =>
    cases z with
    | none => exact not_none_milder zx
    | some c => exact zy .unmeasured
  | some b =>
    cases zx with
    | unmeasured => exact yx .unmeasured
    | @measured c a lt =>
      rw [milder_some] at yx zy
      have ab : a ≤ b := (OrderedQuantity.not_lt_iff a b (hx a rfl) (hy b rfl)).mp yx
      have bc : b ≤ c := (OrderedQuantity.not_lt_iff b c (hy b rfl) (hz c rfl)).mp zy
      exact OrderedQuantity.not_le_of_lt lt (OrderedQuantity.le_trans a b c ab bc)

/-- What is milder than a severity is milder than one that is not milder than this one. -/
theorem Milder.trans_not (hx : IsComparable x) (hy : IsComparable y) (hz : IsComparable z) (xy : Milder x y)
    (zy : ¬Milder z y) : Milder x z := by
  by_contra xz
  exact not_milder_trans hy hz hx zy xz xy

/-- If a severity is not milder than another, then this one is milder than all that the first is milder than. -/
theorem Milder.not_trans (hx : IsComparable x) (hy : IsComparable y) (hz : IsComparable z) (yx : ¬Milder y x)
    (yz : Milder y z) : Milder x z := by
  by_contra xz
  exact not_milder_trans hz hx hy xz yx yz

/-- Two severities are the same if neither is milder than the other. -/
theorem AsSevere.sameSeverity (hx : IsComparable x) (hy : IsComparable y) (level : AsSevere x y) : SameSeverity x y := by
  cases x with
  | none =>
    cases y with
    | none => exact .none
    | some b => exact absurd .unmeasured level.2
  | some a =>
    cases y with
    | none => exact absurd .unmeasured level.1
    | some b =>
      rw [AsSevere, milder_some, milder_some] at level
      have ab : a ≤ b := (OrderedQuantity.not_lt_iff a b (hx a rfl) (hy b rfl)).mp level.2
      have ba : b ≤ a := (OrderedQuantity.not_lt_iff b a (hy b rfl) (hx a rfl)).mp level.1
      exact .some (Quantity.same_iff.mpr ⟨ab, ba⟩)

theorem sameSeverity_refl (hx : IsComparable x) : SameSeverity x x :=
  AsSevere.sameSeverity hx hx ⟨fun milder => milder.asymm milder, fun milder => milder.asymm milder⟩

theorem AsSevere.trans (hx : IsComparable x) (hy : IsComparable y) (hz : IsComparable z) (xy : AsSevere x y)
    (yz : AsSevere y z) : AsSevere x z :=
  ⟨not_milder_trans hz hy hx yz.1 xy.1, not_milder_trans hx hy hz xy.2 yz.2⟩

end

end Leftover
