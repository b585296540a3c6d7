/-
# Exact numbers in order

Apart from the undefined value, exact numbers are ordered one after the other. Finite ones are added, subtracted and
compared like rational numbers.

* `Exact.isFinite_iff` : finite values are rational numbers
* `Exact.le_trans`, `Exact.le_antisymm`, `Exact.not_lt` : the order
* `Exact.larger_le_iff`, `Exact.foldl_larger_le_iff` : the largest of some values
* `Evidence.ofExcess_eq_satisfied` : no excess
-/
import Leftover.Check.Insertion
import Mathlib.Algebra.Order.Ring.Rat

namespace Leftover

theorem Quantity.isFinite_larger {α : Type} [Quantity α] {x y : α} (hx : isFinite x = true) (hy : isFinite y = true) :
    isFinite (larger x y) = true := by
  rw [larger]
  split
  · exact hy
  · exact hx

namespace Exact

/-! ## Finite values -/

@[simp] theorem finite_add_finite (a b : Rat) : finite a + finite b = finite (a + b) := rfl

@[simp] theorem finite_sub_finite (a b : Rat) : finite a - finite b = finite (a - b) := by
  rw [sub_eq_add_neg]
  rfl

@[simp] theorem finite_lt_finite (a b : Rat) : finite a < finite b ↔ a < b := by
  show decide (a < b) = true ↔ a < b
  rw [decide_eq_true_iff]

@[simp] theorem finite_le_finite (a b : Rat) : finite a ≤ finite b ↔ a ≤ b := by
  show (!decide (b < a)) = true ↔ a ≤ b
  simp

@[simp] theorem finite_le_zero (a : Rat) : finite a ≤ 0 ↔ a ≤ 0 := finite_le_finite a 0

@[simp] theorem isFinite_finite (a : Rat) : Quantity.isFinite (finite a) = true := rfl

/-- Finite values are rational numbers. -/
theorem isFinite_iff {x : Exact} : Quantity.isFinite x = true ↔ ∃ a, x = finite a := by
  cases x with
  | undefined => exact ⟨fun h => absurd h (by decide), fun ⟨a, h⟩ => absurd h (by simp)⟩
  | minusInfinity => exact ⟨fun h => absurd h (by decide), fun ⟨a, h⟩ => absurd h (by simp)⟩
  | finite a => exact ⟨fun _ => ⟨a, rfl⟩, fun _ => rfl⟩
  | plusInfinity => exact ⟨fun h => absurd h (by decide), fun ⟨a, h⟩ => absurd h (by simp)⟩

theorem isFinite_add {x y : Exact} (hx : Quantity.isFinite x = true) (hy : Quantity.isFinite y = true) :
    Quantity.isFinite (x + y) = true := by
  obtain ⟨a, rfl⟩ := isFinite_iff.mp hx
  obtain ⟨b, rfl⟩ := isFinite_iff.mp hy
  rfl

/-- A sum is finite just when both its parts are. -/
theorem isFinite_add_iff {x y : Exact} :
    Quantity.isFinite (x + y) = true ↔ Quantity.isFinite x = true ∧ Quantity.isFinite y = true := by
  constructor
  · intro finite
    match x, y, finite with
    | .finite a, .finite b, _ => exact ⟨rfl, rfl⟩
  · rintro ⟨hx, hy⟩
    exact isFinite_add hx hy

theorem add_finite_sub_finite (x : Exact) (a : Rat) : x + finite a - finite a = x := by
  cases x with
  | undefined | minusInfinity | plusInfinity => rfl
  | finite b => rw [finite_add_finite, finite_sub_finite, add_sub_cancel_right]

theorem sub_finite_add_finite (x : Exact) (a : Rat) : x - finite a + finite a = x := by
  cases x with
  | undefined | minusInfinity | plusInfinity => rfl
  | finite b => rw [finite_sub_finite, finite_add_finite, sub_add_cancel]

theorem isFinite_sub {x y : Exact} (hx : Quantity.isFinite x = true) (hy : Quantity.isFinite y = true) :
    Quantity.isFinite (x - y) = true := by
  obtain ⟨a, rfl⟩ := isFinite_iff.mp hx
  obtain ⟨b, rfl⟩ := isFinite_iff.mp hy
  rfl

theorem isFinite_largest {fallback : Exact} {xs : List Exact} (finite : Quantity.isFinite fallback = true)
    (h : ∀ y ∈ xs, Quantity.isFinite y = true) : Quantity.isFinite (Quantity.largest fallback xs) = true := by
  cases xs with
  | nil => exact finite
  | cons x rest =>
    rw [Quantity.largest]
    induction rest generalizing x with
    | nil => exact h x (by simp)
    | cons y rest ih =>
      rw [List.forall_mem_cons, List.forall_mem_cons] at h
      exact ih _ (List.forall_mem_cons.mpr ⟨Quantity.isFinite_larger h.1 h.2.1, h.2.2⟩)

/-! ## The order -/

/-- The value is a number or an infinity. -/
def IsDefined (x : Exact) : Prop := x ≠ undefined

theorem isDefined_finite (a : Rat) : IsDefined (finite a) := by simp [IsDefined]

theorem isDefined_zero : IsDefined 0 := isDefined_finite 0

theorem isDefined_of_isFinite {x : Exact} (h : Quantity.isFinite x = true) : IsDefined x := by
  obtain ⟨a, rfl⟩ := isFinite_iff.mp h
  exact isDefined_finite a

protected theorem le_def {x y : Exact} : x ≤ y ↔ le x y = true := Iff.rfl

protected theorem lt_def {x y : Exact} : x < y ↔ lt x y = true := Iff.rfl

theorem isDefined_of_le {x y : Exact} (h : x ≤ y) : IsDefined x ∧ IsDefined y := by
  rw [Exact.le_def] at h
  cases x <;> cases y <;> simp_all [IsDefined, le]

protected theorem le_refl {x : Exact} (h : IsDefined x) : x ≤ x := by
  rw [Exact.le_def]
  cases x <;> simp_all [IsDefined, le, lt]

protected theorem le_trans {x y z : Exact} (h : x ≤ y) (h' : y ≤ z) : x ≤ z := by
  rw [Exact.le_def] at h h' ⊢
  cases x <;> cases y <;> cases z <;> simp_all [le, lt]
  exact le_trans h h'

protected theorem le_antisymm {x y : Exact} (h : x ≤ y) (h' : y ≤ x) : x = y := by
  rw [Exact.le_def] at h h'
  cases x <;> cases y <;> simp_all [le, lt]
  exact le_antisymm h h'

/-- Of two defined values one comes first, or they are the same. -/
protected theorem not_lt {x y : Exact} (hx : IsDefined x) (hy : IsDefined y) : ¬x < y ↔ y ≤ x := by
  rw [Exact.le_def, Exact.lt_def]
  cases x <;> cases y <;> simp_all [IsDefined, le, lt]

protected theorem le_of_lt {x y : Exact} (h : x < y) : x ≤ y := by
  rw [Exact.lt_def] at h
  rw [Exact.le_def]
  cases x <;> cases y <;> simp_all [le, lt]
  exact le_of_lt h

protected theorem lt_of_lt_of_le {x y z : Exact} (h : x < y) (h' : y ≤ z) : x < z := by
  rw [Exact.lt_def] at h ⊢
  rw [Exact.le_def] at h'
  cases x <;> cases y <;> cases z <;> simp_all [le, lt]
  exact lt_of_lt_of_le h h'

theorem add_finite_lt_add_finite {x y : Exact} {a : Rat} : x + finite a < y + finite a ↔ x < y := by
  rw [Exact.lt_def, Exact.lt_def]
  show lt (add x (finite a)) (add y (finite a)) = true ↔ _
  cases x <;> cases y <;> simp [add, lt]

protected theorem lt_irrefl (x : Exact) : ¬x < x := by
  rw [Exact.lt_def]
  cases x <;> simp [lt]

/-! ## The larger and the smaller -/

section

open Quantity

theorem larger_finite (a b : Rat) : larger (finite a) (finite b) = finite (max a b) := by
  rw [larger]
  by_cases h : a < b
  · rw [if_pos (by simpa using h), max_eq_right h.le]
  · rw [if_neg (by simpa using h), max_eq_left (not_lt.mp h)]

theorem isDefined_larger {x y : Exact} (hx : IsDefined x) (hy : IsDefined y) : IsDefined (larger x y) := by
  rw [larger]
  split
  · exact hy
  · exact hx

/-- The larger of two values lies below a bound if both do. -/
theorem larger_le_iff {x y bound : Exact} (hx : IsDefined x) (hy : IsDefined y) :
    larger x y ≤ bound ↔ x ≤ bound ∧ y ≤ bound := by
  rw [larger]
  split
  · rename_i h
    exact ⟨fun le => ⟨Exact.le_trans (Exact.le_of_lt h) le, le⟩, fun le => le.2⟩
  · rename_i h
    exact ⟨fun le => ⟨le, Exact.le_trans ((Exact.not_lt hx hy).mp h) le⟩, fun le => le.1⟩

/-- What lies below the first of two values lies below the larger one, whatever the second is. -/
theorem le_larger {x y bound : Exact} (h : bound ≤ x) : bound ≤ larger x y := by
  rw [larger]
  split
  · rename_i lt
    exact Exact.le_trans h (Exact.le_of_lt lt)
  · exact h

/-- The larger of zero and a value that is not above it. -/
theorem larger_zero {x : Exact} (h : x ≤ 0) : larger x 0 = 0 := by
  rw [larger]
  split
  · rfl
  · rename_i not_lt
    exact Exact.le_antisymm h ((Exact.not_lt (isDefined_of_le h).1 isDefined_zero).mp not_lt)

theorem le_smaller {x y bound : Exact} (hx : bound ≤ x) (hy : bound ≤ y) : bound ≤ smaller x y := by
  rw [smaller]
  split
  · exact hy
  · exact hx

/-- The largest of some values lies below a bound if all of them do. -/
theorem foldl_larger_le_iff {x bound : Exact} {xs : List Exact} (h : ∀ y ∈ x :: xs, IsDefined y) :
    xs.foldl larger x ≤ bound ↔ ∀ y ∈ x :: xs, y ≤ bound := by
  induction xs generalizing x with
  | nil => simp
  | cons y rest ih =>
    rw [List.forall_mem_cons, List.forall_mem_cons] at h
    obtain ⟨hx, hy, defined⟩ := h
    have next := ih (List.forall_mem_cons.mpr ⟨isDefined_larger hx hy, defined⟩)
    rw [List.foldl_cons, next, List.forall_mem_cons, larger_le_iff hx hy, List.forall_mem_cons, List.forall_mem_cons,
      and_assoc]

theorem isDefined_foldl_larger {x : Exact} {xs : List Exact} (h : ∀ y ∈ x :: xs, IsDefined y) :
    IsDefined (xs.foldl larger x) := by
  induction xs generalizing x with
  | nil => exact h x (by simp)
  | cons y rest ih =>
    rw [List.forall_mem_cons, List.forall_mem_cons] at h
    exact ih (List.forall_mem_cons.mpr ⟨isDefined_larger h.1 h.2.1, h.2.2⟩)

/-- The largest of some values, with a fallback that lies below the bound. -/
theorem largest_le_iff {fallback bound : Exact} {xs : List Exact} (h : ∀ y ∈ xs, IsDefined y)
    (low : fallback ≤ bound) : largest fallback xs ≤ bound ↔ ∀ y ∈ xs, y ≤ bound := by
  cases xs with
  | nil => simp [largest, low]
  | cons x rest => exact foldl_larger_le_iff h

theorem isDefined_largest {fallback : Exact} {xs : List Exact} (defined : IsDefined fallback)
    (h : ∀ y ∈ xs, IsDefined y) : IsDefined (largest fallback xs) := by
  cases xs with
  | nil => exact defined
  | cons x rest => exact isDefined_foldl_larger h

/-- What lies below some values lies below the smallest one. -/
theorem le_foldl_smaller {x bound : Exact} {xs : List Exact} (h : ∀ y ∈ x :: xs, bound ≤ y) :
    bound ≤ xs.foldl smaller x := by
  induction xs generalizing x with
  | nil => exact h x (by simp)
  | cons y rest ih =>
    rw [List.forall_mem_cons, List.forall_mem_cons] at h
    exact ih (List.forall_mem_cons.mpr ⟨le_smaller h.1 h.2.1, h.2.2⟩)

end

/-! ## Lengths

Distances may be infinite, but are never negative. -/

theorem add_nonneg {x y : Exact} (hx : 0 ≤ x) (hy : 0 ≤ y) : 0 ≤ x + y := by
  rw [Exact.le_def] at hx hy ⊢
  show le (finite 0) (add x y) = true
  cases x <;> cases y <;> simp_all [le, lt, add]
  exact Rat.add_nonneg hx hy

protected theorem sub_zero (x : Exact) : x - 0 = x := by
  cases x with
  | undefined | minusInfinity | plusInfinity => rfl
  | finite a => rw [show (0 : Exact) = finite 0 from rfl, finite_sub_finite, sub_zero]

theorem isDefined_sub_finite {x : Exact} (h : IsDefined x) (a : Rat) : IsDefined (x - finite a) := by
  show IsDefined (add x (neg (finite a)))
  cases x <;> simp_all [IsDefined, add, neg]

theorem isDefined_finite_sub {x : Exact} (h : IsDefined x) (a : Rat) : IsDefined (finite a - x) := by
  show IsDefined (add (finite a) (neg x))
  cases x <;> simp_all [IsDefined, add, neg]

/-- A difference that is not above zero. -/
theorem sub_finite_nonpos {x : Exact} {a : Rat} : x - finite a ≤ 0 ↔ x ≤ finite a := by
  rw [Exact.le_def, Exact.le_def]
  show le (add x (neg (finite a))) (finite 0) = true ↔ _
  cases x <;> simp [le, lt, add, neg]

/-- The difference of a value and a smaller one is above zero. -/
theorem sub_pos_of_lt {x y : Exact} (h : x < y) : 0 < y - x := by
  rw [Exact.lt_def] at h ⊢
  show lt (finite 0) (add y (neg x)) = true
  cases x <;> cases y <;> simp_all [lt, add, neg]

/-- A difference is above zero just when the second value is below the first. -/
theorem sub_pos_iff {x y : Exact} : 0 < y - x ↔ x < y := by
  refine ⟨fun h => ?_, sub_pos_of_lt⟩
  rw [Exact.lt_def] at h ⊢
  have h : lt (finite 0) (add y (neg x)) = true := h
  cases x <;> cases y <;> simp_all [lt, add, neg]

theorem sub_nonneg_of_lt {x y : Exact} (h : x < y) : 0 ≤ y - x := Exact.le_of_lt (sub_pos_of_lt h)

end Exact

/-! ## Evidence -/

/-- There is no excess if it is not above zero. -/
theorem Evidence.ofExcess_eq_satisfied {x : Exact} (h : x.IsDefined) :
    Evidence.ofExcess x = .satisfied ↔ x ≤ 0 := by
  rw [← Exact.not_lt Exact.isDefined_zero h, Evidence.ofExcess]
  split
  · rename_i positive
    exact ⟨fun absurd => by simp at absurd, fun none => absurd positive none⟩
  · rename_i none
    exact ⟨fun _ => none, fun _ => rfl⟩

end Leftover
