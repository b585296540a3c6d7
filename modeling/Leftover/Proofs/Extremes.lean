/-
# The greatest and the least of some values

Undefined values among others never win when the larger or the smaller of two is chosen, so what is left in the end is
the greatest, or the least, of the defined ones. An excess that is told by the largest of some amounts is the greatest
of those above zero.

* `Exact.isGreatest_foldl_larger`, `Exact.isLeast_foldl_smaller` : the largest and the smallest of some values
* `Evidence.Measures`, `Evidence.measures_ofExcess` : evidence of the greatest of some amounts
-/
import Leftover.Proofs.Excess
import Mathlib.Order.Bounds.Basic

namespace Leftover

namespace Exact

open Quantity

/-! ## The largest -/

theorem isGreatest_larger {x y : Exact} (hx : IsDefined x) :
    IsGreatest {z | (z = x ∨ z = y) ∧ IsDefined z} (larger x y) := by
  by_cases hy : IsDefined y
  · have below := (larger_le_iff hx hy).mp (Exact.le_refl (isDefined_larger hx hy))
    constructor
    · refine ⟨?_, isDefined_larger hx hy⟩
      rw [larger]
      split
      · exact Or.inr rfl
      · exact Or.inl rfl
    · rintro z ⟨rfl | rfl, -⟩
      · exact below.1
      · exact below.2
  · rw [IsDefined, not_not] at hy
    subst hy
    rw [larger_undefined]
    refine ⟨⟨Or.inl rfl, hx⟩, ?_⟩
    rintro z ⟨rfl | rfl, hz⟩
    · exact Exact.le_refl hx
    · exact absurd rfl hz

/-- The largest of a defined value and some others is the greatest of the defined ones. -/
theorem isGreatest_foldl_larger {x : Exact} (hx : IsDefined x) (xs : List Exact) :
    IsGreatest {z | z ∈ x :: xs ∧ IsDefined z} (xs.foldl larger x) := by
  induction xs generalizing x with
  | nil =>
    refine ⟨⟨by simp, hx⟩, ?_⟩
    rintro z ⟨member, -⟩
    rw [List.mem_singleton.mp member]
    exact Exact.le_refl hx
  | cons y rest ih =>
    obtain ⟨⟨chosen, defined⟩, above⟩ := isGreatest_larger (y := y) hx
    obtain ⟨⟨member, defined'⟩, above'⟩ := ih defined
    have larger_le : larger x y ≤ rest.foldl larger (larger x y) := above' ⟨by simp, defined⟩
    constructor
    · refine ⟨?_, defined'⟩
      rcases List.mem_cons.mp member with same | listed
      · rw [List.foldl_cons, same]
        rcases chosen with same | same <;> simp [same]
      · exact List.mem_cons_of_mem _ (List.mem_cons_of_mem _ listed)
    · rintro z ⟨listed, hz⟩
      rcases List.mem_cons.mp listed with rfl | listed
      · exact Exact.le_trans (above ⟨Or.inl rfl, hz⟩) larger_le
      rcases List.mem_cons.mp listed with rfl | listed
      · exact Exact.le_trans (above ⟨Or.inr rfl, hz⟩) larger_le
      · exact above' ⟨List.mem_cons_of_mem _ listed, hz⟩

/-- What is not above a value does not replace it. -/
theorem larger_eq_left {x y : Exact} (low : y ≤ x) : larger x y = x := by
  have defined := isDefined_of_le low
  rw [larger, if_neg ((Exact.not_lt defined.2 defined.1).mpr low)]

theorem foldl_larger_eq_self {x : Exact} {xs : List Exact} (low : ∀ y ∈ xs, y ≤ x) : xs.foldl larger x = x := by
  induction xs with
  | nil => rfl
  | cons y rest ih =>
    rw [List.forall_mem_cons] at low
    rw [List.foldl_cons, larger_eq_left low.1]
    exact ih low.2

/-! ## The smallest -/

/-- The smallest of some defined values is the least of them. -/
theorem isLeast_foldl_smaller {x : Exact} {xs : List Exact} (defined : ∀ z ∈ x :: xs, IsDefined z) :
    IsLeast {z | z ∈ x :: xs} (xs.foldl smaller x) := by
  constructor
  · show xs.foldl smaller x ∈ x :: xs
    clear defined
    induction xs generalizing x with
    | nil => simp
    | cons y rest ih =>
      rw [List.foldl_cons]
      rcases List.mem_cons.mp (ih (x := smaller x y)) with same | listed
      · rw [same, smaller]
        split <;> simp
      · exact List.mem_cons_of_mem _ (List.mem_cons_of_mem _ listed)
  · show ∀ z ∈ x :: xs, xs.foldl smaller x ≤ z
    induction xs generalizing x with
    | nil =>
      intro z listed
      rw [List.mem_singleton.mp listed]
      exact Exact.le_refl (defined x (by simp))
    | cons y rest ih =>
      rw [List.forall_mem_cons, List.forall_mem_cons] at defined
      obtain ⟨hx, hy, others⟩ := defined
      -- the smaller of the first two lies below both
      have both : IsDefined (smaller x y) ∧ smaller x y ≤ x ∧ smaller x y ≤ y := by
        rw [smaller]
        split
        · rename_i less
          exact ⟨hy, Exact.le_of_lt less, Exact.le_refl hy⟩
        · rename_i not_less
          exact ⟨hx, Exact.le_refl hx, (Exact.not_lt hy hx).mp not_less⟩
      have below := ih (List.forall_mem_cons.mpr ⟨both.1, others⟩)
      rw [List.forall_mem_cons] at below
      rw [List.foldl_cons, List.forall_mem_cons, List.forall_mem_cons]
      exact ⟨Exact.le_trans below.1 both.2.1, Exact.le_trans below.1 both.2.2, below.2⟩

end Exact

/-! ## Evidence -/

namespace Evidence

/-- Evidence of the greatest of some amounts: a violation by that much, and none if there is no amount. -/
inductive Measures (amounts : Set Exact) : Evidence Exact → Prop where
  | satisfied (none_there : amounts = ∅) : Measures amounts .satisfied
  | violated {x : Exact} (greatest : IsGreatest amounts x) : Measures amounts (.violated (some x))

/-- An excess is the greatest of itself, if it is above zero. -/
theorem measures_ofExcess_self (x : Exact) : (ofExcess x).Measures {z | z = x ∧ 0 < z} := by
  rw [ofExcess]
  split
  · rename_i positive
    refine .violated ⟨⟨rfl, positive⟩, ?_⟩
    rintro z ⟨rfl, -⟩
    exact Exact.le_refl (Exact.isDefined_of_lt positive).2
  · rename_i none_above
    refine .satisfied (Set.eq_empty_of_forall_notMem ?_)
    rintro z ⟨rfl, positive⟩
    exact none_above positive

/-- The largest of a defined value and some others, as an excess, is the greatest of those above zero. -/
theorem measures_ofExcess {x : Exact} (hx : x.IsDefined) (xs : List Exact) :
    (ofExcess (xs.foldl Quantity.larger x)).Measures {z | z ∈ x :: xs ∧ 0 < z} := by
  obtain ⟨⟨member, -⟩, above⟩ := Exact.isGreatest_foldl_larger hx xs
  have above_zero : ∀ z ∈ x :: xs, 0 < z → z ≤ xs.foldl Quantity.larger x := fun z listed positive =>
    above ⟨listed, (Exact.isDefined_of_lt positive).2⟩
  rw [ofExcess]
  split
  · rename_i positive
    exact .violated ⟨⟨member, positive⟩, fun z hz => above_zero z hz.1 hz.2⟩
  · rename_i not_positive
    refine .satisfied (Set.eq_empty_of_forall_notMem ?_)
    rintro z ⟨listed, positive⟩
    exact not_positive (Exact.lt_of_lt_of_le positive (above_zero z listed positive))

theorem Measures.eq_satisfied_iff {amounts : Set Exact} {e : Evidence Exact} (measured : e.Measures amounts) :
    e = .satisfied ↔ amounts = ∅ := by
  cases measured with
  | satisfied none_there => exact iff_of_true rfl none_there
  | violated greatest => exact iff_of_false (by simp) (Set.Nonempty.ne_empty ⟨_, greatest.1⟩)

/-- Further amounts that lie below the ones that are measured do not matter. -/
theorem Measures.of_dominated {amounts amounts' : Set Exact} {e : Evidence Exact} (measured : e.Measures amounts)
    (among : amounts ⊆ amounts') (dominated : ∀ x ∈ amounts', ∃ y ∈ amounts, x ≤ y) : e.Measures amounts' := by
  cases measured with
  | satisfied none_there =>
    refine .satisfied (Set.eq_empty_of_forall_notMem fun x member => ?_)
    obtain ⟨y, listed, -⟩ := dominated x member
    exact absurd listed (by simp [none_there])
  | violated greatest =>
    refine .violated ⟨among greatest.1, fun x member => ?_⟩
    obtain ⟨y, listed, below⟩ := dominated x member
    exact Exact.le_trans below (greatest.2 listed)

/-- The largest of some defined values, as an excess, is the greatest of those above zero. -/
theorem measures_ofExcess_largest {xs : List Exact} (defined : ∀ x ∈ xs, x.IsDefined) :
    (ofExcess (Quantity.largest 0 xs)).Measures {z | z ∈ xs ∧ 0 < z} := by
  cases xs with
  | nil => exact .satisfied (by simp)
  | cons x rest => exact measures_ofExcess (defined x (by simp)) rest

end Evidence

end Leftover
