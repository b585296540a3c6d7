/-
# Quantities up to the sign of a zero

There are two doubles that are zero, which no comparison tells apart. A sum or a difference may end as the one or the
other, but is the same otherwise, whichever zeros it is made of. So what times and loads are worked out from may differ
in the sign of a zero, and they differ in no more themselves; and what lies above zero is the same.

* `Ties` : two quantities are the same, or both are zero
* `SignlessZero` : a scale on which sums and differences of such quantities are such quantities
* `Ties.larger`, `Ties.smaller`, `Ties.foldl_larger` : choices between quantities that tie
* `foldl_larger_perm_ties` : the largest of some quantities, in any order
* `Ties.ofExcess_eq` : excesses that tie
-/
import Leftover.Proofs.DoubleSums
import Leftover.Proofs.DoubleScale

namespace Leftover

open Quantity

/-! ## Quantities that tie -/

/-- Two quantities are the same, or both are zero. -/
def Ties {α : Type} [Quantity α] (x y : α) : Prop := x = y ∨ same x 0 = true ∧ same y 0 = true

/-- A scale on which quantities at one place are the same but for the sign of a zero, and on which such a sign makes no
more difference to sums and differences. -/
class SignlessZero (α : Type) [Quantity α] : Prop extends Scale α where
  ties_of_same (x y : α) : same x y = true → Ties x y
  isFinite_of_zero (x : α) : same x 0 = true → isFinite x = true
  add_ties (x x' y y' : α) : Ties x x' → Ties y y' → Ties (x + y) (x' + y')
  sub_ties (x x' y y' : α) : Ties x x' → Ties y y' → Ties (x - y) (x' - y')

@[refl] theorem Ties.refl {α : Type} [Quantity α] (x : α) : Ties x x := Or.inl rfl

theorem Ties.symm {α : Type} [Quantity α] {x y : α} (tie : Ties x y) : Ties y x := tie.imp Eq.symm And.symm

theorem Ties.trans {α : Type} [Quantity α] {x y z : α} (xy : Ties x y) (yz : Ties y z) : Ties x z := by
  rcases xy with rfl | ⟨hx, hy⟩
  · exact yz
  · rcases yz with rfl | ⟨-, hz⟩
    · exact Or.inr ⟨hx, hy⟩
    · exact Or.inr ⟨hx, hz⟩

/-! ### Exact numbers -/

theorem Exact.eq_of_ties {x y : Exact} (tie : Ties x y) : x = y := by
  rcases tie with same | ⟨hx, hy⟩
  · exact same
  · rw [Exact.eq_of_same hx, Exact.eq_of_same hy]

instance : SignlessZero Exact where
  ties_of_same _ _ tie := Or.inl (Exact.eq_of_same tie)
  isFinite_of_zero x zero := by rw [Exact.eq_of_same zero]; rfl
  add_ties _ _ _ _ hx hy := Or.inl (by rw [Exact.eq_of_ties hx, Exact.eq_of_ties hy])
  sub_ties _ _ _ _ hx hy := Or.inl (by rw [Exact.eq_of_ties hx, Exact.eq_of_ties hy])

/-! ### Doubles -/

section

open Float.Model Float.Model.UnpackedFloat

/-- Doubles are told by their parts. -/
theorem float_eq_of_unpack {x y : Float} (parts : x.toModel.unpack = y.toModel.unpack) : x = y := by
  obtain ⟨bits, valid⟩ := x
  obtain ⟨bits', valid'⟩ := y
  have same_bits := (unpack_inj_of_valid valid valid').mp parts
  rw [UInt64.toBitVec_inj] at same_bits
  subst same_bits
  rfl

/-- The doubles at the place of zero are the two zeros. -/
theorem float_same_zero_iff {x : Float} : same x (Zero.zero : Float) = true ↔ ∃ s, x.toModel.unpack = .zero s := by
  have unpack_zero : (Zero.zero : Float).toModel.unpack = .zero .positive := rfl
  rw [same_iff]
  constructor
  · rintro ⟨le, ge⟩
    rcases unpack_eq_of_le le ge with parts | ⟨s, -, zero, -⟩
    · exact ⟨.positive, parts.trans unpack_zero⟩
    · exact ⟨s, zero⟩
  · rintro ⟨s, zero⟩
    rw [float_le_iff, float_le_iff, zero, unpack_zero]
    cases s <;> exact ⟨rfl, rfl⟩

/-- Two values are the same, or zeros of any signs. -/
def PartsTie (u v : UnpackedFloat) : Prop := u = v ∨ ∃ s s', u = .zero s ∧ v = .zero s'

theorem float_ties_iff {x y : Float} : Ties x y ↔ PartsTie x.toModel.unpack y.toModel.unpack := by
  show x = y ∨ same x (Zero.zero : Float) = true ∧ same y (Zero.zero : Float) = true ↔ _
  rw [float_same_zero_iff, float_same_zero_iff]
  constructor
  · rintro (rfl | ⟨⟨s, hx⟩, ⟨s', hy⟩⟩)
    · exact Or.inl rfl
    · exact Or.inr ⟨s, s', hx, hy⟩
  · rintro (parts | ⟨s, s', hx, hy⟩)
    · exact Or.inl (float_eq_of_unpack parts)
    · exact Or.inr ⟨⟨s, hx⟩, ⟨s', hy⟩⟩

theorem float_ties_of_parts {u v : UnpackedFloat} (parts : PartsTie u v) :
    Ties (Float.ofModel (Float.Model.pack u)) (Float.ofModel (Float.Model.pack v)) := by
  rcases parts with rfl | ⟨s, s', rfl, rfl⟩
  · rfl
  · rw [float_ties_iff]
    exact Or.inr ⟨s, s', by cases s <;> rfl, by cases s' <;> rfl⟩

/-- An operation for which the sign of a zero on either side makes no more difference than that of a zero gives values
that tie for values that do. -/
theorem float_ties_op {op : UnpackedFloat → UnpackedFloat → UnpackedFloat}
    (zeros : ∀ u s s', PartsTie (op u (.zero s)) (op u (.zero s')) ∧ PartsTie (op (.zero s) u) (op (.zero s') u))
    {x x' y y' : Float} (hx : Ties x x') (hy : Ties y y') :
    Ties (Float.ofModel (Float.Model.pack (op x.toModel.unpack y.toModel.unpack)))
      (Float.ofModel (Float.Model.pack (op x'.toModel.unpack y'.toModel.unpack))) := by
  refine .trans (y := Float.ofModel (Float.Model.pack (op x'.toModel.unpack y.toModel.unpack))) ?_ ?_
  · apply float_ties_of_parts
    rcases float_ties_iff.mp hx with parts | ⟨s, s', zero, zero'⟩
    · rw [parts]
      exact Or.inl rfl
    · rw [zero, zero']
      exact (zeros _ s s').2
  · apply float_ties_of_parts
    rcases float_ties_iff.mp hy with parts | ⟨s, s', zero, zero'⟩
    · rw [parts]
      exact Or.inl rfl
    · rw [zero, zero']
      exact (zeros _ s s').1

theorem add_zero_partsTie (u : UnpackedFloat) (s s' : Sign) :
    PartsTie (UnpackedFloat.add .binary64 u (.zero s)) (UnpackedFloat.add .binary64 u (.zero s'))
      ∧ PartsTie (UnpackedFloat.add .binary64 (.zero s) u) (UnpackedFloat.add .binary64 (.zero s') u) := by
  cases u with
  | notANumber | infinity t | finite t m e pos => exact ⟨Or.inl rfl, Or.inl rfl⟩
  | zero t => cases t <;> cases s <;> cases s' <;> exact ⟨Or.inr ⟨_, _, rfl, rfl⟩, Or.inr ⟨_, _, rfl, rfl⟩⟩

theorem sub_zero_partsTie (u : UnpackedFloat) (s s' : Sign) :
    PartsTie (UnpackedFloat.sub .binary64 u (.zero s)) (UnpackedFloat.sub .binary64 u (.zero s'))
      ∧ PartsTie (UnpackedFloat.sub .binary64 (.zero s) u) (UnpackedFloat.sub .binary64 (.zero s') u) := by
  cases u with
  | notANumber | infinity t | finite t m e pos => exact ⟨Or.inl rfl, Or.inl rfl⟩
  | zero t => cases t <;> cases s <;> cases s' <;> exact ⟨Or.inr ⟨_, _, rfl, rfl⟩, Or.inr ⟨_, _, rfl, rfl⟩⟩

instance : SignlessZero Float where
  ties_of_same x y tie := by
    rw [same_iff] at tie
    exact float_ties_iff.mpr (unpack_eq_of_le tie.1 tie.2)
  isFinite_of_zero x zero := by
    obtain ⟨s, zero⟩ := float_same_zero_iff.mp zero
    show x.toModel.unpack.isFinite = true
    rw [zero]
    rfl
  add_ties _ _ _ _ := float_ties_op add_zero_partsTie
  sub_ties _ _ _ _ := float_ties_op sub_zero_partsTie

end

/-! ## Comparing and choosing -/

section

variable {α : Type} [Quantity α] [OrderedQuantity α] {x x' y y' z : α}

namespace Ties

theorem le_left (tie : Ties x x') (le : x ≤ y) : x' ≤ y := by
  rcases tie with rfl | ⟨zero, zero'⟩
  · exact le
  · rw [same_iff] at zero zero'
    exact OrderedQuantity.le_trans _ _ _ zero'.1 (OrderedQuantity.le_trans _ _ _ zero.2 le)

theorem le_right (tie : Ties y y') (le : x ≤ y) : x ≤ y' := by
  rcases tie with rfl | ⟨zero, zero'⟩
  · exact le
  · rw [same_iff] at zero zero'
    exact OrderedQuantity.le_trans _ _ _ (OrderedQuantity.le_trans _ _ _ le zero.1) zero'.2

theorem le_iff (hx : Ties x x') (hy : Ties y y') : x ≤ y ↔ x' ≤ y' :=
  ⟨fun le => hy.le_right (hx.le_left le), fun le => hy.symm.le_right (hx.symm.le_left le)⟩

theorem isUndefined_eq (tie : Ties x x') : isUndefined x = isUndefined x' := by
  rcases tie with rfl | ⟨zero, zero'⟩
  · rfl
  · rw [same_iff] at zero zero'
    rw [(OrderedQuantity.isDefined_of_le _ _ zero.1).1, (OrderedQuantity.isDefined_of_le _ _ zero'.1).1]

theorem lt_of_lt (hx : Ties x x') (hy : Ties y y') (lt : x < y) : x' < y' := by
  obtain ⟨x_defined, y_defined⟩ := OrderedQuantity.isDefined_of_lt lt
  rw [hx.isUndefined_eq] at x_defined
  rw [hy.isUndefined_eq] at y_defined
  refine OrderedQuantity.lt_of_not_le y_defined x_defined fun le => ?_
  exact OrderedQuantity.not_le_of_lt lt ((hy.le_iff hx).mpr le)

theorem lt_iff (hx : Ties x x') (hy : Ties y y') : x < y ↔ x' < y' :=
  ⟨hx.lt_of_lt hy, hx.symm.lt_of_lt hy.symm⟩

/-- What ties with something above zero is the same. -/
theorem eq_of_pos (tie : Ties x y) (positive : 0 < x) : x = y := by
  rcases tie with same | ⟨zero, -⟩
  · exact same
  · exact absurd (same_iff.mp zero).1 (OrderedQuantity.not_le_of_lt positive)

theorem ofExcess_eq (tie : Ties x y) : Evidence.ofExcess x = Evidence.ofExcess y := by
  rw [Evidence.ofExcess, Evidence.ofExcess]
  split
  · rename_i positive
    rw [if_pos (tie.eq_of_pos positive ▸ positive), tie.eq_of_pos positive]
  · rename_i none
    rw [if_neg fun positive => none (tie.symm.eq_of_pos positive ▸ positive)]

theorem larger (hx : Ties x x') (hy : Ties y y') : Ties (larger x y) (larger x' y') := by
  rw [Quantity.larger, Quantity.larger]
  split
  · rename_i lt
    rw [if_pos ((hx.lt_iff hy).mp lt)]
    exact hy
  · rename_i not_lt
    rw [if_neg (mt (hx.lt_iff hy).mpr not_lt)]
    exact hx

theorem smaller (hx : Ties x x') (hy : Ties y y') : Ties (smaller x y) (smaller x' y') := by
  rw [Quantity.smaller, Quantity.smaller]
  split
  · rename_i lt
    rw [if_pos ((hy.lt_iff hx).mp lt)]
    exact hy
  · rename_i not_lt
    rw [if_neg (mt (hy.lt_iff hx).mpr not_lt)]
    exact hx

theorem foldl_larger {xs ys : List α} (hx : Ties x x') (each : List.Forall₂ Ties xs ys) :
    Ties (xs.foldl Quantity.larger x) (ys.foldl Quantity.larger x') := by
  induction each generalizing x x' with
  | nil => exact hx
  | cons first _ ih => exact ih (hx.larger first)

theorem foldl_smaller {xs ys : List α} (hx : Ties x x') (each : List.Forall₂ Ties xs ys) :
    Ties (xs.foldl Quantity.smaller x) (ys.foldl Quantity.smaller x') := by
  induction each generalizing x x' with
  | nil => exact hx
  | cons first _ ih => exact ih (hx.smaller first)

end Ties

end

section

variable {α : Type} [Quantity α] [SignlessZero α] {x x' y y' z : α}

theorem Ties.add (hx : Ties x x') (hy : Ties y y') : Ties (x + y) (x' + y') := SignlessZero.add_ties _ _ _ _ hx hy

theorem Ties.sub (hx : Ties x x') (hy : Ties y y') : Ties (x - y) (x' - y') := SignlessZero.sub_ties _ _ _ _ hx hy

theorem Ties.isFinite_eq (tie : Ties x y) : isFinite x = isFinite y := by
  rcases tie with rfl | ⟨zero, zero'⟩
  · rfl
  · rw [SignlessZero.isFinite_of_zero x zero, SignlessZero.isFinite_of_zero y zero']

theorem ties_of_le (xy : x ≤ y) (yx : y ≤ x) : Ties x y := SignlessZero.ties_of_same _ _ (same_iff.mpr ⟨xy, yx⟩)

/-- What an insertion adds beyond a limit ties for overruns that do. -/
theorem Ties.addedOverrun (hx : Ties x x') (hy : Ties y y') : Ties (addedOverrun x y) (addedOverrun x' y') := by
  have counted : Ties (if isFinite y then y else 0) (if isFinite y' then y' else 0) := by
    rw [hy.isFinite_eq]
    split
    · exact hy
    · rfl
  exact (hx.larger (.refl 0)).sub (counted.larger (.refl 0))

/-! ### The largest of some quantities, in any order -/

/-- An undefined quantity is not chosen for being larger, and none is chosen in its place. -/
theorem larger_of_isUndefined (undefined : isUndefined y = true) (x : α) : larger x y = x ∧ larger y x = y := by
  have after : ¬x < y := fun lt => by simp [(OrderedQuantity.isDefined_of_lt lt).2] at undefined
  have before : ¬y < x := fun lt => by simp [(OrderedQuantity.isDefined_of_lt lt).1] at undefined
  rw [larger, larger, if_neg after, if_neg before]
  exact ⟨rfl, rfl⟩

/-- Of a quantity and two others the largest ties, whichever of the two comes first. -/
theorem larger_right_comm_ties (x y z : α) : Ties (larger (larger x y) z) (larger (larger x z) y) := by
  cases hx : isUndefined x with
  | true => simp only [(larger_of_isUndefined hx _).2, Ties.refl]
  | false =>
  cases hy : isUndefined y with
  | true => simp only [(larger_of_isUndefined hy _).1, Ties.refl]
  | false =>
  cases hz : isUndefined z with
  | true => simp only [(larger_of_isUndefined hz _).1, Ties.refl]
  | false =>
  have greatest : IsGreatest {w | w ∈ [x, y, z]} (larger (larger x y) z) :=
    OrderedQuantity.isGreatest_foldl_larger (by simp [hx, hy, hz])
  have greatest' : IsGreatest {w | w ∈ [x, z, y]} (larger (larger x z) y) :=
    OrderedQuantity.isGreatest_foldl_larger (by simp [hx, hy, hz])
  have same : ∀ w, w ∈ [x, y, z] ↔ w ∈ [x, z, y] := fun w => by simp only [List.mem_cons]; tauto
  exact ties_of_le (greatest'.2 ((same _).mp greatest.1)) (greatest.2 ((same _).mpr greatest'.1))

/-- The largest of a quantity and some others ties in any order of the others. -/
theorem foldl_larger_perm_ties {xs ys : List α} (perm : xs.Perm ys) (x : α) :
    Ties (xs.foldl larger x) (ys.foldl larger x) := by
  induction perm generalizing x with
  | nil => rfl
  | cons y _ ih => exact ih (larger x y)
  | swap y z rest => exact (larger_right_comm_ties x z y).foldl_larger (List.forall₂_same.mpr fun w _ => .refl w)
  | trans _ _ ih ih' => exact (ih x).trans (ih' x)

/-- The largest of some quantities that are not undefined ties in any order. -/
theorem largest_perm_ties {fallback : α} {xs ys : List α} (perm : xs.Perm ys)
    (defined : ∀ x ∈ xs, isUndefined x = false) : Ties (largest fallback xs) (largest fallback ys) := by
  by_cases none : xs = []
  · subst none
    rw [perm.nil_eq]
  · have none' : ys ≠ [] := fun none' => none (List.Perm.eq_nil (none' ▸ perm))
    have greatest := OrderedQuantity.isGreatest_largest fallback none defined
    have greatest' := OrderedQuantity.isGreatest_largest fallback none' fun y member => defined y (perm.mem_iff.mpr member)
    exact ties_of_le (greatest'.2 (perm.mem_iff.mp greatest.1)) (greatest.2 (perm.mem_iff.mpr greatest'.1))

end

end Leftover
