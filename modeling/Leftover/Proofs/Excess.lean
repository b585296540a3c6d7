/-
# Excess over wider limits

What exceeds a limit exceeds every narrower one. An undefined excess is none at all, so what is compared is whether an
excess is above zero, and values of which the smaller one may be undefined.

* `Exact.AtMost` : a value is not above another one, or undefined
* `Exact.foldl_larger_atMost`, `Exact.largest_pos` : the largest of some values
* `addedOverrun_pos_iff` : when a job pushes a route beyond a limit
* `addedOverrun_pos_of_le` : a narrower limit
-/
import Leftover.Proofs.ExactOrder
import Leftover.Proofs.Ties
import Mathlib.Tactic.Linarith

namespace Leftover

namespace Exact

open Quantity

/-! ## Values above zero -/

theorem isDefined_of_lt {x y : Exact} (h : x < y) : IsDefined x ∧ IsDefined y := isDefined_of_le (Exact.le_of_lt h)

theorem le_larger_right {x y : Exact} (hx : IsDefined x) (hy : IsDefined y) : y ≤ larger x y :=
  ((larger_le_iff hx hy).mp (Exact.le_refl (isDefined_larger hx hy))).2

theorem larger_undefined (x : Exact) : larger x undefined = x := (larger_of_isUndefined rfl x).1

theorem undefined_larger (x : Exact) : larger undefined x = undefined := (larger_of_isUndefined rfl x).2

/-- The larger of two values is above zero if the first one is. -/
theorem larger_pos_left {x : Exact} (h : 0 < x) (y : Exact) : 0 < larger x y :=
  Exact.lt_of_lt_of_le h (le_larger (Exact.le_refl (isDefined_of_lt h).2))

/-- Where the larger of two values is above zero, it still is with another second one that is above zero if that one
was. -/
theorem larger_pos_of_imp {x y y' : Exact} (imp : 0 < y' → 0 < y) (h : 0 < larger x y') : 0 < larger x y := by
  rw [larger] at h
  split at h
  · rename_i less
    have pos : 0 < y := imp h
    exact Exact.lt_of_lt_of_le pos (le_larger_right (isDefined_of_lt less).1 (isDefined_of_lt pos).2)
  · exact larger_pos_left h y

/-! ## Values that are not above others -/

/-- A value is not above a bound, or undefined. -/
def AtMost (x bound : Exact) : Prop := IsDefined x → x ≤ bound

theorem larger_atMost {x y x' y' : Exact} (first : AtMost x' x) (second : AtMost y' y) :
    AtMost (larger x' y') (larger x y) := by
  intro defined
  have hx' : IsDefined x' := by
    rintro rfl
    exact defined (undefined_larger y')
  have below : x' ≤ larger x y := le_larger (first hx')
  by_cases hy' : IsDefined y'
  · have hx := isDefined_of_le (first hx')
    have hy := isDefined_of_le (second hy')
    exact (larger_le_iff hx' hy').mpr ⟨below, Exact.le_trans (second hy') (le_larger_right hx.2 hy.2)⟩
  · rw [IsDefined, not_not] at hy'
    rw [hy', larger_undefined]
    exact below

/-- The largest of some values is not above that of others which they are not above one by one. -/
theorem foldl_larger_atMost {xs xs' : List Exact} (each : List.Forall₂ AtMost xs' xs) {x x' : Exact}
    (first : AtMost x' x) : AtMost (xs'.foldl larger x') (xs.foldl larger x) := by
  induction each generalizing x x' with
  | nil => exact first
  | cons head _ ih => exact ih (larger_atMost first head)

/-- The largest of some values is above zero if it is for others that are not above them one by one. -/
theorem largest_pos {fallback : Exact} {xs xs' : List Exact} (each : List.Forall₂ AtMost xs' xs)
    (h : 0 < largest fallback xs') : 0 < largest fallback xs := by
  cases each with
  | nil => exact h
  | cons head rest => exact Exact.lt_of_lt_of_le h (foldl_larger_atMost rest head (isDefined_of_lt h).2)

/-- The more is taken from an amount that is not negative, the less is left. -/
theorem sub_atMost {x limit limit' : Exact} (nonneg : 0 ≤ x) (wider : limit ≤ limit') :
    AtMost (x - limit') (x - limit) := by
  intro defined
  rw [Exact.le_def] at nonneg wider ⊢
  have nonneg : le (finite 0) x = true := nonneg
  have defined : add x (neg limit') ≠ undefined := defined
  show le (add x (neg limit')) (add x (neg limit)) = true
  cases x <;> cases limit <;> cases limit' <;> simp_all [le, lt, add, neg]
  linarith

/-- What exceeds a limit exceeds a narrower one. -/
theorem sub_pos_of_le {x limit limit' : Exact} (wider : limit ≤ limit') (h : 0 < x - limit') : 0 < x - limit := by
  rw [Exact.lt_def] at h ⊢
  rw [Exact.le_def] at wider
  have h : lt (finite 0) (add x (neg limit')) = true := h
  show lt (finite 0) (add x (neg limit)) = true
  cases x <;> cases limit <;> cases limit' <;> simp_all [le, lt, add, neg]
  linarith

/-! ## Differences to finite values -/

/-- A difference is finite only if both values are. -/
theorem of_isFinite_sub {x y : Exact} (h : isFinite (x - y) = true) : isFinite x = true ∧ isFinite y = true := by
  have h : Exact.isFinite (add x (neg y)) = true := h
  cases x <;> cases y <;> simp_all [add, neg, Exact.isFinite]

/-- Of two values above a limit the greater one lies further above it. -/
theorem sub_le_sub_of_lt {x y limit : Exact} (above : limit < x) (h : x ≤ y) : x - limit ≤ y - limit := by
  rw [Exact.lt_def] at above
  rw [Exact.le_def] at h ⊢
  show le (add x (neg limit)) (add y (neg limit)) = true
  cases x <;> cases y <;> cases limit <;> simp_all [le, lt, add, neg]

theorem sub_finite_lt_sub_finite {x y : Exact} {a : Rat} : x - finite a < y - finite a ↔ x < y := by
  rw [Exact.lt_def, Exact.lt_def]
  show lt (add x (neg (finite a))) (add y (neg (finite a))) = true ↔ _
  cases x <;> cases y <;> simp [lt, add, neg]

theorem finite_max_lt {x : Exact} {a b : Rat} : finite (max a b) < x ↔ finite a < x ∧ finite b < x := by
  rw [Exact.lt_def, Exact.lt_def, Exact.lt_def]
  cases x <;> simp [lt]

/-- A limit that is exceeded is finite, unless it is below all numbers. -/
theorem isFinite_of_sub_pos {x limit : Exact} {a : Rat} (above : finite a ≤ limit) (h : 0 < x - limit) :
    isFinite limit = true := by
  rw [Exact.lt_def] at h
  rw [Exact.le_def] at above
  have h : lt (finite 0) (add x (neg limit)) = true := h
  show Exact.isFinite limit = true
  cases x <;> cases limit <;> simp_all [le, lt, add, neg, Exact.isFinite]

/-- A value that is not negative lies below what is above zero of another one just when it lies below that one. -/
theorem finite_lt_larger_zero {x : Exact} {a : Rat} (nonneg : 0 ≤ a) : finite a < larger x 0 ↔ finite a < x := by
  rw [larger]
  split
  · rename_i negative
    have not_below : ¬finite a < 0 := fun less => absurd ((finite_lt_finite a 0).mp less) (not_lt.mpr nonneg)
    exact iff_of_false not_below fun less => not_below (Exact.lt_of_lt_of_le less (Exact.le_of_lt negative))
  · rfl

end Exact

/-! ## Limits that a route is pushed beyond -/

open Quantity

/-- A job pushes a route beyond a limit if the route exceeds it with the job, and by more than it did without the job. -/
theorem addedOverrun_pos_iff (after before : Exact) :
    0 < addedOverrun after before ↔ 0 < after ∧ (isFinite before = true → before < after) := by
  show 0 < larger after 0 - larger (if isFinite before then before else 0) 0 ↔ _
  cases finite : isFinite before with
  | false =>
    have nothing : larger (if false = true then before else 0) 0 = .finite 0 :=
      Exact.larger_zero (Exact.le_refl Exact.isDefined_zero)
    rw [nothing, Exact.sub_pos_iff, Exact.finite_lt_larger_zero (le_refl 0)]
    simp only [Bool.false_eq_true, false_imp_iff, and_true]
    rfl
  | true =>
    obtain ⟨b, rfl⟩ := Exact.isFinite_iff.mp finite
    have counted : larger (if true = true then Exact.finite b else 0) 0 = .finite (max b 0) := Exact.larger_finite b 0
    rw [counted, Exact.sub_pos_iff, Exact.finite_lt_larger_zero (le_max_right b 0), Exact.finite_max_lt, and_comm]
    simp only [true_imp_iff]
    rfl

/-- What a job pushes beyond a limit it pushes beyond a narrower one. -/
theorem addedOverrun_pos_of_le {after before limit limit' : Exact} (wider : limit ≤ limit')
    (h : 0 < addedOverrun (after - limit') (before - limit')) : 0 < addedOverrun (after - limit) (before - limit) := by
  rw [addedOverrun_pos_iff] at h ⊢
  obtain ⟨exceeded, more⟩ := h
  refine ⟨Exact.sub_pos_of_le wider exceeded, fun finite => ?_⟩
  obtain ⟨finite_before, finite_limit⟩ := Exact.of_isFinite_sub finite
  obtain ⟨most, rfl⟩ := Exact.isFinite_iff.mp finite_limit
  -- the wider limit is exceeded, so it is finite as well
  have finite_limit' := Exact.isFinite_of_sub_pos wider exceeded
  obtain ⟨most', rfl⟩ := Exact.isFinite_iff.mp finite_limit'
  rw [Exact.sub_finite_lt_sub_finite]
  exact Exact.sub_finite_lt_sub_finite.mp (more (Exact.isFinite_sub finite_before finite_limit'))

end Leftover
