/-
# Timelines

On its way a vehicle only ever adds to its time and to the meters it has driven. So neither goes back, however the sums
are rounded. The laws that this rests on hold of exact numbers, and of doubles.

* `Timeline` : what times and lengths have to be like
* `figure_nonneg`, `leg?_eq_some` : the figures of a leg
-/
import Leftover.Proofs.DoubleSums
import Leftover.Proofs.Timekeeping

namespace Leftover

/-! ## Laws of times -/

/-- A type of numbers that times can be kept and compared in: going on never leads back, infinity lies ahead,
and what is taken away from a later time may be replaced by what is as large. -/
class Timeline (α : Type) [Quantity α] : Prop extends Timekeeping α, Scale α where
  zero_le_infinity : (0 : α) ≤ Quantity.infinity
  le_add (x y : α) : IsAhead x → 0 ≤ y → x ≤ x + y
  sub_congr (x y z : α) : y < x → y ≤ z → z ≤ y → x - y = x - z

theorem Exact.le_add {x y : Exact} (ahead : IsAhead x) (nonneg : 0 ≤ y) : x ≤ x + y := by
  rw [Exact.isAhead_iff] at ahead
  rw [Exact.le_def] at nonneg ⊢
  show le x (add x y) = true
  cases x <;> cases y <;> simp_all [le, lt, add]

instance : Timeline Exact where
  zero_le_infinity := by decide
  le_add _ _ := Exact.le_add
  sub_congr x y z _ yz zy := by rw [Exact.le_antisymm yz zy]

instance : Timeline Float where
  zero_le_infinity := by decide
  le_add _ _ ahead nonneg := float_le_add (isAhead_float_iff.mp ahead) nonneg
  sub_congr _ _ _ := float_sub_congr

section

variable {α : Type} [Quantity α] [Timeline α]

theorem Timeline.isDefined_of_isAhead {x : α} (ahead : IsAhead x) : Quantity.isUndefined x = false :=
  (OrderedQuantity.isDefined_of_le _ _
    (le_add x 0 ahead (OrderedQuantity.le_refl Timekeeping.isUndefined_zero))).1

/-! ## Legs -/

/-- No figure of a matrix is negative. -/
theorem figure_nonneg (entry : Option α) : 0 ≤ Matrix.figure entry := by
  cases entry with
  | none => exact Timeline.zero_le_infinity
  | some x =>
    rw [Matrix.figure]
    split
    · exact Timeline.zero_le_infinity
    · rename_i valid
      rw [not_or, Bool.not_eq_true] at valid
      exact (OrderedQuantity.not_lt_iff 0 x Timekeeping.isUndefined_zero valid.2).mp valid.1

theorem entry_nonneg {table : List (List (Option α))} {i j : Nat} {x : α} (found : Matrix.entry table i j = .ok x) :
    0 ≤ x := by
  obtain ⟨entry, -, rfl⟩ := except_map_eq_ok.mp found
  exact figure_nonneg entry

/-- A leg that can be driven takes finitely many minutes, and no negative meters. -/
theorem leg?_eq_some {m : Matrix α} {i j : Nat} {minutes meters : α}
    (found : leg? m i j = .ok (some (minutes, meters))) : Quantity.isFinite minutes = true ∧ 0 ≤ meters := by
  obtain ⟨minutes', -, found⟩ := except_bind_eq_ok.mp found
  split at found
  · rename_i finite
    obtain ⟨meters', metered, found⟩ := except_bind_eq_ok.mp found
    simp only [except_pure, Except.ok.injEq, Option.some.injEq, Prod.mk.injEq] at found
    obtain ⟨rfl, rfl⟩ := found
    exact ⟨finite, entry_nonneg metered⟩
  · exact absurd found (by simp)

end

end Leftover
