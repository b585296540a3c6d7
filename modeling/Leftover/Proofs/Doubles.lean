/-
# Doubles

What the arithmetic of doubles does to times: they are ordered one after the other apart from the undefined value, and
a time to which something is added that is not negative stays a number, or becomes the upper infinity. So rounding never
makes a time undefined.

* `exponent_round` : a mantissa of few enough bits is rounded without overflow
* `isCanonical_of_unpack` : the mantissa and the exponent of a double
* `ahead_add` : sums of doubles
* `float_lt_iff`, `float_le_iff`, `float_not_lt_iff` : the order of doubles
* `float_lt_infinity`, `float_infinity_sub` : infinity beside finite doubles
-/
import Leftover.Quantity
import Mathlib

namespace Leftover

open Float.Model Float.Model.UnpackedFloat

/-! ## Rounding -/

theorem shiftRight_mantissa (em : ExtendedMantissa) (k : Nat) : (em >>> k).mantissa = em.mantissa / 2 ^ k := by
  induction k with
  | zero => simp [HShiftRight.hShiftRight, Nat.repeat]
  | succ k ih =>
    show (em >>> k).mantissa / 2 = _
    rw [ih, Nat.div_div_eq_div_mul, Nat.pow_succ]

/-- Rounding a mantissa adds one at most. -/
theorem roundedMantissa_le (em : ExtendedMantissa) : em.roundedMantissa ≤ em.mantissa + 1 := by
  obtain ⟨m, roundBit, stickyBit⟩ := em
  cases roundBit <;> cases stickyBit <;>
    simp only [ExtendedMantissa.roundedMantissa, ExtendedMantissa.accuracy, Accuracy.roundToNearestEven] <;> omega

theorem targetExponent_binary64 (t : Int) : Format.binary64.targetExponent t = max (t - 53) (-1074) := by
  rw [Format.targetExponent]
  rfl

/-- The exponent of the result when shifting -/
theorem shiftToTargetExponent_eq (n : Nat) (e : Int) :
    (shiftToTargetExponent Format.binary64 n e .exact).2
        = e + ((max ((n.log2 : Int) + 1 + e - 53) (-1074) - e).toNat : Nat)
      ∧ (shiftToTargetExponent Format.binary64 n e .exact).1.mantissa
        = n / 2 ^ (max ((n.log2 : Int) + 1 + e - 53) (-1074) - e).toNat := by
  rw [shiftToTargetExponent, targetExponent_binary64, totalExponent]
  refine ⟨rfl, ?_⟩
  rw [shiftToExponent]
  exact shiftRight_mantissa _ _

theorem log2_le_of_lt {n k : Nat} (h : n < 2 ^ (k + 1)) : n.log2 ≤ k := by
  by_cases zero : n = 0
  · subst zero
    exact Nat.zero_le k
  · have := (Nat.log2_lt zero).mpr h
    omega

/-- Rounding a mantissa of few enough bits does not raise the exponent above a bound. -/
theorem exponent_roundWithAccuracy {s s' : Sign} {n m : Nat} {e e' top : Int} {pos : 0 < m} (low : e ≤ top)
    (top_min : -1074 ≤ top) (below : n < (2 ^ 53 - 1) * 2 ^ (top - e).toNat)
    (rounded : roundWithAccuracy Format.binary64 s n e .exact = .finite s' m e' pos) : e' ≤ top := by
  obtain ⟨first_exponent, first_mantissa⟩ := shiftToTargetExponent_eq n e
  generalize first_eq : shiftToTargetExponent Format.binary64 n e .exact = first at first_exponent first_mantissa
  obtain ⟨em, e₁⟩ := first
  obtain ⟨second_exponent, -⟩ := shiftToTargetExponent_eq em.roundedMantissa e₁
  -- the exponent of the result is the second one
  have result : e' = (shiftToTargetExponent Format.binary64 em.roundedMantissa e₁ .exact).2 := by
    rw [roundWithAccuracy, first_eq] at rounded
    simp only at rounded
    split at rounded
    · exact absurd rounded (by simp)
    · simp only [UnpackedFloat.finite.injEq] at rounded
      exact rounded.2.2.symm
  simp only at first_exponent first_mantissa
  rw [result, second_exponent]
  have small : n < 2 ^ (52 + (top - e).toNat + 1) := by
    calc n < (2 ^ 53 - 1) * 2 ^ (top - e).toNat := below
      _ ≤ 2 ^ 53 * 2 ^ (top - e).toNat := Nat.mul_le_mul_right _ (by omega)
      _ = 2 ^ (52 + (top - e).toNat + 1) := by rw [← Nat.pow_add]; congr 1; omega
  have log_n := log2_le_of_lt small
  have rounded_le := roundedMantissa_le em
  rw [first_mantissa] at rounded_le
  have log_rounded : (em.roundedMantissa.log2 : Int) + 1 + e₁ - 53 ≤ top := by
    by_cases at_top : e₁ = top
    · -- the mantissa has room for one more
      have same_shift : (max ((n.log2 : Int) + 1 + e - 53) (-1074) - e).toNat = (top - e).toNat := by omega
      rw [same_shift] at rounded_le
      have quotient : n / 2 ^ (top - e).toNat < 2 ^ 53 - 1 :=
        (Nat.div_lt_iff_lt_mul (Nat.two_pow_pos _)).mpr below
      have := log2_le_of_lt (n := em.roundedMantissa) (k := 52) (by omega)
      omega
    · have bits : n < 2 ^ 53 * 2 ^ (max ((n.log2 : Int) + 1 + e - 53) (-1074) - e).toNat := by
        rw [← Nat.pow_add]
        exact Nat.lt_of_lt_of_le Nat.lt_log2_self (Nat.pow_le_pow_right (by omega) (by omega))
      have quotient := (Nat.div_lt_iff_lt_mul (Nat.two_pow_pos _)).mpr bits
      have := log2_le_of_lt (n := em.roundedMantissa) (k := 53) (by omega)
      omega
  omega

theorem exponent_round {s s' : Sign} {n m : Nat} {e e' top : Int} {pos : 0 < m} (low : e ≤ top)
    (top_min : -1074 ≤ top) (below : n < (2 ^ 53 - 1) * 2 ^ (top - e).toNat)
    (rounded : round Format.binary64 s n e = .finite s' m e' pos) : e' ≤ top := by
  rw [UnpackedFloat.round, targetExponent_binary64, totalExponent] at rounded
  simp only [decreaseExponent] at rounded
  generalize (e - max ((n.log2 : Int) + 1 + e - 53) (-1074)).toNat = k at rounded
  refine exponent_roundWithAccuracy (by omega) top_min ?_ rounded
  have shift : (top - (e - k)).toNat = (top - e).toNat + k := by omega
  rw [shift, Nat.pow_add, ← Nat.mul_assoc, Nat.shiftLeft_eq]
  exact Nat.mul_lt_mul_of_pos_right below (Nat.two_pow_pos k)

/-! ## Packing -/

/-- The parts of a double: a mantissa that fits, and fills its bits unless the exponent is the least one. -/
structure IsCanonical (m : Nat) (e : Int) : Prop where
  bits : m < 2 ^ 53
  low : -1074 ≤ e
  high : e ≤ 971
  full : e = -1074 ∨ 2 ^ 52 ≤ m

theorem isCanonical_of_unpack {x : Float.Model} {s : Sign} {m : Nat} {e : Int} {pos : 0 < m}
    (parts : x.unpack = .finite s m e pos) : IsCanonical m e := by
  rw [Float.Model.unpack, UnpackedFloat.unpack] at parts
  have bias : (Format.binary64.exponentBias : Int) = 1023 := by decide
  have exponent : (@unpackExponent .binary64 x.toBits.toBitVec).toNat < 2048 := BitVec.isLt _
  simp only [bias] at parts
  split at parts
  · split at parts <;> exact absurd parts (by simp)
  · rename_i not_ones
    have below : (@unpackExponent .binary64 x.toBits.toBitVec).toNat ≠ 2047 :=
      fun same => not_ones (BitVec.eq_of_toNat_eq same)
    split at parts
    · rename_i zeros
      split at parts
      · exact absurd parts (by simp)
      · simp only [UnpackedFloat.finite.injEq] at parts
        obtain ⟨-, rfl, rfl⟩ := parts
        have mantissa := (@unpackMantissa .binary64 x.toBits.toBitVec).isLt
        rw [zeros]
        exact ⟨Nat.lt_trans mantissa (by decide), by decide, by decide, Or.inl (by decide)⟩
    · rename_i not_zeros
      have above : (@unpackExponent .binary64 x.toBits.toBitVec).toNat ≠ 0 :=
        fun same => not_zeros (BitVec.eq_of_toNat_eq same)
      simp only [UnpackedFloat.finite.injEq] at parts
      obtain ⟨-, rfl, rfl⟩ := parts
      refine ⟨BitVec.isLt _, by omega, by omega, Or.inr ?_⟩
      rw [BitVec.toNat_append, Nat.shiftLeft_eq]
      exact Nat.le_trans (by decide) Nat.left_le_or

/-- The value is a number or the upper infinity. -/
inductive Ahead : UnpackedFloat → Prop
  | infinity : Ahead (.infinity .positive)
  | zero (s : Sign) : Ahead (.zero s)
  | finite (s : Sign) (m : Nat) (e : Int) (pos : 0 < m) : Ahead (.finite s m e pos)

/-- A value whose exponent is not the greatest one is finite. -/
theorem ahead_of_exponent {x : Float.Model}
    (other : @unpackExponent .binary64 x.toBits.toBitVec ≠ -1#_) : Ahead x.unpack := by
  rw [Float.Model.unpack, UnpackedFloat.unpack]
  simp only [if_neg other]
  split
  · split
    · exact .zero _
    · exact .finite _ _ _ _
  · exact .finite _ _ _ _

theorem ahead_pack_infinity : Ahead (Float.Model.pack (.infinity .positive)).unpack := by
  have same : (Float.Model.pack (.infinity .positive)).unpack = .infinity .positive := rfl
  rw [same]
  exact .infinity

theorem ahead_pack_zero (s : Sign) : Ahead (Float.Model.pack (.zero s)).unpack := by
  have same : (Float.Model.pack (.zero s)).unpack = .zero s := by cases s <;> rfl
  rw [same]
  exact .zero s

/-- A value whose exponent is too large is packed into the infinity of its sign. -/
theorem pack_of_large {s : Sign} {m : Nat} {e : Int} (pos : 0 < m) (large : 971 < e) :
    Float.Model.pack (.finite s m e pos) = Float.Model.pack (.infinity s) := by
  have bias : (Format.binary64.exponentBias : Int) = 1023 := by decide
  rw [Float.Model.pack, Float.Model.pack, Float.Model.mk.injEq]
  congr 1
  rw [UnpackedFloat.pack, UnpackedFloat.pack, bias]
  exact if_pos (by simp; omega)

/-- A finite value is packed into one or, if its exponent is too large, into an infinity of its sign. -/
theorem ahead_pack_finite {s : Sign} {m : Nat} {e : Int} (pos : 0 < m) (low : s = .negative → e ≤ 971) :
    Ahead (Float.Model.pack (.finite s m e pos)).unpack := by
  have bias : (Format.binary64.exponentBias : Int) = 1023 := by decide
  by_cases large : 971 < e
  · have positive : s = .positive := by
      cases s with
      | negative => exact absurd (low rfl) (by omega)
      | positive => rfl
    subst positive
    rw [pack_of_large pos large]
    exact ahead_pack_infinity
  · refine ahead_of_exponent ?_
    have fits : ¬2 ^ Format.binary64.exponentBits
        ≤ (e + Format.binary64.exponentBias + Format.binary64.mantissaBitsWithoutImplicit).toNat + 1 := by
      rw [bias]
      simp
      omega
    rw [Float.Model.pack]
    simp only [UnpackedFloat.pack, if_neg fits]
    split
    · rw [unpackExponent_packComponents]
      intro same
      have same := congrArg BitVec.toNat same
      rw [BitVec.toNat_ofNat, Nat.mod_eq_of_lt (by omega)] at same
      have ones : (-1#11).toNat = 2047 := by decide
      rw [ones] at same
      simp at fits
      omega
    · rw [unpackExponent_packComponents]
      decide

/-! ## Sums -/

/-- The value is a number that is not negative, or the upper infinity. -/
inductive Nonnegative : UnpackedFloat → Prop
  | infinity : Nonnegative (.infinity .positive)
  | zero (s : Sign) : Nonnegative (.zero s)
  | finite (m : Nat) (e : Int) (pos : 0 < m) : Nonnegative (.finite .positive m e pos)

/-- Rounding keeps the sign. -/
theorem round_cases (s : Sign) (n : Nat) (e : Int) :
    round Format.binary64 s n e = .zero s ∨ ∃ m e' pos, round Format.binary64 s n e = .finite s m e' pos := by
  rw [UnpackedFloat.round]
  simp only [roundWithAccuracy]
  split
  · exact Or.inl rfl
  · rename_i nonzero
    exact Or.inr ⟨_, _, Nat.pos_of_ne_zero nonzero, rfl⟩

/-- A number is rounded to one or to the upper infinity, if it is not so far below zero that it overflows. -/
theorem ahead_normalize {sum e top : Int} (low : e ≤ top) (min_top : -1074 ≤ top) (max_top : top ≤ 971)
    (below : -((2 ^ 53 - 1) * 2 ^ (top - e).toNat : Nat) < sum) :
    Ahead (Float.Model.pack (normalize Format.binary64 sum e .positive)).unpack := by
  rw [UnpackedFloat.normalize]
  split
  · rename_i negative
    have negative : sum < 0 := Int.compare_eq_lt.mp negative
    rcases round_cases .negative (-sum).toNat e with zero | ⟨m, e', pos, finite⟩
    · rw [zero]
      exact ahead_pack_zero .negative
    · rw [finite]
      have bounded : e' ≤ top := exponent_round low min_top (by omega) finite
      exact ahead_pack_finite pos fun _ => by omega
  · exact ahead_pack_zero .positive
  · rcases round_cases .positive sum.toNat e with zero | ⟨m, e', pos, finite⟩
    · rw [zero]
      exact ahead_pack_zero .positive
    · rw [finite]
      exact ahead_pack_finite pos fun negative => absurd negative (by simp)

/-- A sum does not fall below the numbers if nothing negative is added. -/
theorem ahead_add {x y : Float.Model} (hx : Ahead x.unpack) (hy : Nonnegative y.unpack) : Ahead (x.add y).unpack := by
  rw [Float.Model.add]
  generalize parts : x.unpack = u at hx
  generalize parts' : y.unpack = u' at hy
  cases hx with
  | infinity =>
    cases hy with
    | infinity => exact ahead_pack_infinity
    | zero s' => exact ahead_pack_infinity
    | finite m' e' pos' => exact ahead_pack_infinity
  | zero s =>
    cases hy with
    | infinity => exact ahead_pack_infinity
    | zero s' =>
      rw [UnpackedFloat.add]
      split
      · exact ahead_pack_zero s
      · exact ahead_pack_zero .positive
    | finite m' e' pos' => exact ahead_pack_finite pos' fun negative => absurd negative (by simp)
  | finite s m e pos =>
    obtain ⟨bits, min_e, max_e, -⟩ := isCanonical_of_unpack parts
    cases hy with
    | infinity => exact ahead_pack_infinity
    | zero s' => exact ahead_pack_finite pos fun _ => max_e
    | finite m' e' pos' =>
      -- what is added takes away from a negative number, so its mantissa has room for rounding
      refine ahead_normalize (Int.min_le_left e e') min_e max_e ?_
      rw [Nat.shiftLeft_eq, Nat.shiftLeft_eq]
      have unit : 0 < m' * 2 ^ (e' - min e e').toNat := Nat.mul_pos pos' (Nat.two_pow_pos _)
      have room : m * 2 ^ (e - min e e').toNat ≤ (2 ^ 53 - 1) * 2 ^ (e - min e e').toNat :=
        Nat.mul_le_mul_right _ (by omega)
      show _ < s.apply _ + ((m' * 2 ^ (e' - min e e').toNat : Nat) : Int)
      cases s with
      | negative =>
        show _ < -((m * 2 ^ (e - min e e').toNat : Nat) : Int) + _
        omega
      | positive =>
        show _ < ((m * 2 ^ (e - min e e').toNat : Nat) : Int) + _
        omega

/-! ## The order -/

/-- Comparing two values the other way round. -/
theorem compare_swap (u v : UnpackedFloat) : u.compare v = (v.compare u).map Ordering.swap := by
  have numbers : ∀ (m m' : Nat) (e e' : Int),
      (compare e e').then (compare m m') = ((compare e' e).then (compare m' m)).swap := by
    intro m m' e e'
    rw [Ordering.swap_then, ← Std.OrientedOrd.eq_swap, ← Std.OrientedOrd.eq_swap]
  cases u with
  | notANumber => cases v <;> rfl
  | infinity s => cases s <;> cases v with
    | infinity s' => cases s' <;> rfl
    | notANumber | zero s' => rfl
    | finite s' m e pos => cases s' <;> rfl
  | zero s => cases v with
    | infinity s' => cases s' <;> rfl
    | notANumber | zero s' => rfl
    | finite s' m e pos => cases s' <;> rfl
  | finite s m e pos => cases v with
    | infinity s' => cases s <;> cases s' <;> rfl
    | notANumber => rfl
    | zero s' => cases s <;> rfl
    | finite s' m' e' pos' =>
      cases s with
      | negative =>
        cases s' with
        | negative => exact congrArg some (congrArg Ordering.swap (numbers m m' e e'))
        | positive => rfl
      | positive =>
        cases s' with
        | negative => rfl
        | positive => exact congrArg some (numbers m m' e e')

theorem float_lt_iff {x y : Float} : x < y ↔ x.toModel.unpack.compare y.toModel.unpack = some .lt := by
  show decide (x.toModel < y.toModel) = true ↔ _
  rw [decide_eq_true_iff]
  show (x.toModel.unpack.compare y.toModel.unpack == some .lt) = true ↔ _
  exact beq_iff_eq

theorem float_le_iff {x y : Float} : x ≤ y ↔ (x.toModel.unpack.compare y.toModel.unpack).any (·.isLE) = true := by
  show decide (x.toModel ≤ y.toModel) = true ↔ _
  rw [decide_eq_true_iff]
  rfl

/-- Two values are in order, unless one of them is undefined. -/
theorem compare_eq_none {u v : UnpackedFloat} : u.compare v = none ↔ u = .notANumber ∨ v = .notANumber := by
  cases u with
  | notANumber => simp [UnpackedFloat.compare]
  | infinity s => cases s <;> cases v with
    | infinity s' => cases s' <;> simp [UnpackedFloat.compare]
    | notANumber | zero s' => simp [UnpackedFloat.compare]
    | finite s' m e pos => cases s' <;> simp [UnpackedFloat.compare]
  | zero s => cases v with
    | infinity s' => cases s' <;> simp [UnpackedFloat.compare]
    | notANumber | zero s' => simp [UnpackedFloat.compare]
    | finite s' m e pos => cases s' <;> simp [UnpackedFloat.compare]
  | finite s m e pos => cases s <;> cases v with
    | infinity s' => cases s' <;> simp [UnpackedFloat.compare]
    | notANumber | zero s' => simp [UnpackedFloat.compare]
    | finite s' m e pos => cases s' <;> simp [UnpackedFloat.compare]

theorem float_isNaN_iff {x : Float} : x.isNaN = true ↔ x.toModel.unpack = .notANumber := UnpackedFloat.isNaN_iff

/-- Of two doubles one comes first, unless one of them is undefined. -/
theorem float_not_lt_iff {x y : Float} : ¬y < x ↔ x ≤ y ∨ x.isNaN = true ∨ y.isNaN = true := by
  rw [float_lt_iff, float_le_iff, compare_swap, float_isNaN_iff, float_isNaN_iff, or_comm (a := _ = _), ← compare_eq_none]
  cases x.toModel.unpack.compare y.toModel.unpack with
  | none => simp
  | some o => cases o <;> simp

theorem not_isNaN_of_float_le {x y : Float} (h : x ≤ y) : x.isNaN = false ∧ y.isNaN = false := by
  have ordered : ¬(x.isNaN = true ∨ y.isNaN = true) := by
    intro undefined
    rw [float_isNaN_iff, float_isNaN_iff, ← compare_eq_none] at undefined
    rw [float_le_iff, undefined] at h
    cases h
  rwa [not_or, Bool.not_eq_true, Bool.not_eq_true] at ordered

theorem float_le_of_not_lt {x y : Float} (hx : x.isNaN = false) (hy : y.isNaN = false) (not_lt : ¬y < x) : x ≤ y := by
  rw [float_not_lt_iff, hx, hy] at not_lt
  rcases not_lt with le | undefined | undefined
  · exact le
  · cases undefined
  · cases undefined

/-- What comes after a number is a number, or the upper infinity. -/
theorem ahead_of_lt {x y : Float} (hx : Ahead x.toModel.unpack) (later : x < y) : Ahead y.toModel.unpack := by
  rw [float_lt_iff] at later
  generalize x.toModel.unpack = u at hx later
  generalize y.toModel.unpack = v at later
  cases v with
  | notANumber => exact absurd later (by cases hx <;> simp [UnpackedFloat.compare])
  | infinity s =>
    cases s with
    | negative =>
      have above : u.compare (.infinity .negative) = some .gt := by cases hx <;> rfl
      exact absurd (above.symm.trans later) (by simp)
    | positive => exact .infinity
  | zero s => exact .zero s
  | finite s m e pos => exact .finite s m e pos

theorem ahead_zero : Ahead (0 : Float).toModel.unpack := .zero .positive

/-- The numbers and the upper infinity are just what is finite or positive. -/
theorem ahead_iff {x : Float} : Ahead x.toModel.unpack ↔ x.isFinite = true ∨ 0 < x := by
  constructor
  · intro hx
    have finite : x.isFinite = x.toModel.unpack.isFinite := rfl
    rw [finite, float_lt_iff]
    generalize x.toModel.unpack = u at hx ⊢
    cases hx with
    | infinity => exact Or.inr rfl
    | zero s => exact Or.inl rfl
    | finite s m e pos => exact Or.inl rfl
  · rintro (finite | positive)
    · have finite : x.toModel.unpack.isFinite = true := finite
      generalize x.toModel.unpack = u at finite
      cases u with
      | notANumber => exact absurd finite (by decide)
      | infinity s => exact absurd finite (by simp [UnpackedFloat.isFinite])
      | zero s => exact .zero s
      | finite s m e pos => exact .finite s m e pos
    · exact ahead_of_lt ahead_zero positive

theorem isNaN_of_ahead {x : Float} (hx : Ahead x.toModel.unpack) : x.isNaN = false := by
  have undefined : x.isNaN = x.toModel.unpack.isNaN := rfl
  rw [undefined]
  generalize x.toModel.unpack = u at hx
  cases hx <;> rfl

theorem nonnegative_of_le {y : Float} (h : 0 ≤ y) : Nonnegative y.toModel.unpack := by
  have h := float_le_iff.mp h
  have zero : (0 : Float).toModel.unpack = .zero .positive := rfl
  rw [zero] at h
  generalize y.toModel.unpack = u at h
  cases u with
  | notANumber => exact absurd h (by decide)
  | infinity s =>
    cases s with
    | negative => exact absurd h (by decide)
    | positive => exact .infinity
  | zero s => exact .zero s
  | finite s m e pos =>
    cases s with
    | negative => exact absurd h (by simp [UnpackedFloat.compare])
    | positive => exact .finite m e pos

/-! ## Infinity -/

theorem unpack_infinity : (Quantity.infinity : Float).toModel.unpack = .infinity .positive := rfl

/-- Infinity is more than any finite double. -/
theorem float_lt_infinity {x : Float} (finite : x.isFinite = true) : x < Quantity.infinity := by
  have finite : x.toModel.unpack.isFinite = true := finite
  rw [float_lt_iff, unpack_infinity]
  generalize x.toModel.unpack = u at finite ⊢
  cases u with
  | notANumber | infinity s => exact absurd finite (by simp [UnpackedFloat.isFinite])
  | zero s => rfl
  | finite s m e pos => cases s <;> rfl

/-- Infinity stays infinity when a finite double is taken away. -/
theorem float_infinity_sub {x : Float} (finite : x.isFinite = true) :
    Quantity.infinity - x = (Quantity.infinity : Float) := by
  have finite : x.toModel.unpack.isFinite = true := finite
  have packed : (Quantity.infinity : Float).toModel.sub x.toModel = (Quantity.infinity : Float).toModel := by
    rw [Float.Model.sub, unpack_infinity]
    generalize x.toModel.unpack = u at finite
    cases u with
    | notANumber | infinity s => exact absurd finite (by simp [UnpackedFloat.isFinite])
    | zero s => rfl
    | finite s m e pos => rfl
  exact congrArg Float.ofModel packed

end Leftover
