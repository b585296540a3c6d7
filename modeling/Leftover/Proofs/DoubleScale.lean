/-
# Doubles as a scale

Doubles are rounded, and yet what exceeds a double does so by a difference above zero: what is left of two doubles is a
multiple of the least double, so rounding does not bring it down to zero. So severities can be measured in doubles.

* `compare_eq_lt_iff` : the order of doubles is that of their places
* `roundWithAccuracy_positive`, `positive_pack` : rounding and packing what is above zero
* `positive_sub` : the difference of a value and a smaller one
* `float_ofNat_pos` : counts
-/
import Leftover.Proofs.Doubles
import Leftover.Proofs.Scale

namespace Leftover

open Float.Model Float.Model.UnpackedFloat

/-! ## The order of all doubles -/

/-- The place of a value in the order: by sign and kind first, then by exponent and mantissa. -/
def doublePlace : UnpackedFloat → ℤ ×ₗ ℤ ×ₗ ℤ
  | .infinity .negative => toLex (-2, toLex (0, 0))
  | .finite .negative m e _ => toLex (-1, toLex (-e, -m))
  | .finite .positive m e _ => toLex (1, toLex (e, m))
  | .infinity .positive => toLex (2, toLex (0, 0))
  | _ => toLex (0, toLex (0, 0))

/-- Numbers of the same sign are ordered by exponent and mantissa. -/
theorem compare_numbers {m m' : Nat} {e e' : Int} :
    (compare e e').then (compare m m') = .lt ↔ toLex (e, (m : Int)) < toLex (e', (m' : Int)) := by
  rw [Ordering.then_eq_lt, Int.compare_eq_lt, Int.compare_eq_eq, Nat.compare_eq_lt, Prod.Lex.toLex_lt_toLex, Nat.cast_lt]

theorem compare_numbers_swap {m m' : Nat} {e e' : Int} :
    ((compare e e').then (compare m m')).swap = .lt ↔ toLex (-e, -(m : Int)) < toLex (-e', -(m' : Int)) := by
  rw [Ordering.swap_then, Ordering.then_eq_lt, Ordering.swap_eq_lt, Ordering.swap_eq_lt, Ordering.swap_eq_eq, Int.compare_eq_gt,
    Int.compare_eq_eq, Nat.compare_eq_gt, Prod.Lex.toLex_lt_toLex, neg_lt_neg_iff, neg_inj, neg_lt_neg_iff, Nat.cast_lt]

/-- Of two values that are not undefined the first comes before the second if its place does. -/
theorem compare_eq_lt_iff {u v : UnpackedFloat} (hu : u ≠ .notANumber) (hv : v ≠ .notANumber) :
    u.compare v = some .lt ↔ doublePlace u < doublePlace v := by
  cases u with
  | notANumber => exact absurd rfl hu
  | infinity s => cases s <;> cases v with
    | notANumber => exact absurd rfl hv
    | infinity s' => cases s' <;> simp [UnpackedFloat.compare, doublePlace, Prod.Lex.toLex_lt_toLex] <;> decide
    | zero s' => simp [UnpackedFloat.compare, doublePlace, Prod.Lex.toLex_lt_toLex]
    | finite s' m e pos => cases s' <;> simp [UnpackedFloat.compare, doublePlace, Prod.Lex.toLex_lt_toLex]
  | zero s => cases v with
    | notANumber => exact absurd rfl hv
    | infinity s' => cases s' <;> simp [UnpackedFloat.compare, doublePlace, Prod.Lex.toLex_lt_toLex]
    | zero s' => simp [UnpackedFloat.compare, doublePlace]
    | finite s' m e pos => cases s' <;> simp [UnpackedFloat.compare, doublePlace, Prod.Lex.toLex_lt_toLex]
  | finite s m e pos => cases v with
    | notANumber => exact absurd rfl hv
    | infinity s' => cases s <;> cases s' <;> simp [UnpackedFloat.compare, doublePlace, Prod.Lex.toLex_lt_toLex]
    | zero s' => cases s <;> simp [UnpackedFloat.compare, doublePlace, Prod.Lex.toLex_lt_toLex]
    | finite s' m' e' pos' =>
      cases s with
      | negative =>
        cases s' with
        | negative =>
          show some _ = some Ordering.lt ↔ _
          rw [Option.some.injEq, compare_numbers_swap, doublePlace, doublePlace, Prod.Lex.toLex_lt_toLex (x := (-1, _))]
          simp
        | positive => simp [UnpackedFloat.compare, doublePlace, Prod.Lex.toLex_lt_toLex]
      | positive =>
        cases s' with
        | negative => simp [UnpackedFloat.compare, doublePlace, Prod.Lex.toLex_lt_toLex]
        | positive =>
          show some _ = some Ordering.lt ↔ _
          rw [Option.some.injEq, compare_numbers, doublePlace, doublePlace, Prod.Lex.toLex_lt_toLex (x := (1, _))]
          simp

theorem float_lt_iff_place {x y : Float} (hx : x.isNaN = false) (hy : y.isNaN = false) :
    x < y ↔ doublePlace x.toModel.unpack < doublePlace y.toModel.unpack := by
  have defined {z : Float} (hz : z.isNaN = false) : z.toModel.unpack ≠ .notANumber := by
    rw [Ne, ← float_isNaN_iff, hz]
    exact Bool.false_ne_true
  rw [float_lt_iff, compare_eq_lt_iff (defined hx) (defined hy)]

theorem float_le_iff_place {x y : Float} (hx : x.isNaN = false) (hy : y.isNaN = false) :
    x ≤ y ↔ doublePlace x.toModel.unpack ≤ doublePlace y.toModel.unpack := by
  rw [← not_lt, ← float_lt_iff_place hy hx, float_not_lt_iff, hx, hy]
  simp

theorem float_le_trans {x y z : Float} (xy : x ≤ y) (yz : y ≤ z) : x ≤ z := by
  obtain ⟨hx, hy⟩ := not_isNaN_of_float_le xy
  obtain ⟨-, hz⟩ := not_isNaN_of_float_le yz
  rw [float_le_iff_place hx hy] at xy
  rw [float_le_iff_place hy hz] at yz
  rw [float_le_iff_place hx hz]
  exact xy.trans yz

/-! ## Positive doubles -/

/-- The value is a number above zero, or the upper infinity. -/
inductive Positive : UnpackedFloat → Prop
  | infinity : Positive (.infinity .positive)
  | finite (m : Nat) (e : Int) (pos : 0 < m) : Positive (.finite .positive m e pos)

theorem positive_iff {x : Float} : 0 < x ↔ Positive x.toModel.unpack := by
  have zero : (0 : Float).toModel.unpack = .zero .positive := rfl
  rw [float_lt_iff, zero]
  generalize x.toModel.unpack = u
  constructor
  · intro before
    cases u with
    | notANumber => exact absurd before (by decide)
    | infinity s => cases s with
      | negative => exact absurd before (by decide)
      | positive => exact .infinity
    | zero s => exact absurd before (by simp [UnpackedFloat.compare])
    | finite s m e pos => cases s with
      | negative => exact absurd before (by simp [UnpackedFloat.compare])
      | positive => exact .finite m e pos
  · intro positive
    cases positive with
    | infinity => rfl
    | finite m e pos => rfl

/-- Parts with the positive sign are those of a number above zero, unless the exponent is the greatest one or all are
zero. -/
theorem positive_unpack {e : BitVec Format.binary64.exponentBits} {m : BitVec Format.binary64.mantissaBitsWithoutImplicit}
    (finite : e ≠ -1#_) (nonzero : e ≠ 0#_ ∨ m ≠ 0#_) :
    Positive (UnpackedFloat.unpack Format.binary64 (packComponents Format.binary64 .positive e m)) := by
  have sign : Sign.ofBitVec (unpackSign (packComponents Format.binary64 .positive e m)) = .positive := by
    rw [unpackSign_packComponents]
    rfl
  rw [UnpackedFloat.unpack]
  simp only [unpackExponent_packComponents, unpackMantissa_packComponents, sign, if_neg finite]
  split
  · rename_i zeros
    rw [dif_neg (nonzero.resolve_left fun other => other zeros)]
    exact .finite _ _ _
  · exact .finite _ _ _

/-- What a number above zero is packed into is above zero. -/
theorem positive_pack {m : Nat} {e : Int} (pos : 0 < m) (bits : m < 2 ^ 53) (low : -1074 ≤ e) :
    Positive (Float.Model.pack (.finite .positive m e pos)).unpack := by
  have bias : (Format.binary64.exponentBias : Int) = 1023 := by decide
  by_cases large : 971 < e
  · rw [pack_of_large pos large]
    exact .infinity
  · have fits : ¬2 ^ Format.binary64.exponentBits
        ≤ (e + Format.binary64.exponentBias + Format.binary64.mantissaBitsWithoutImplicit).toNat + 1 := by
      rw [bias]
      simp
      omega
    show Positive (UnpackedFloat.unpack Format.binary64 (UnpackedFloat.pack Format.binary64 (.finite .positive m e pos)))
    rw [UnpackedFloat.pack]
    simp only [if_neg fits]
    split
    · -- the exponent has a place between the least and the greatest one
      have biased : (BitVec.ofNat Format.binary64.exponentBits
          (e + Format.binary64.exponentBias + Format.binary64.mantissaBitsWithoutImplicit).toNat).toNat = (e + 1075).toNat := by
        rw [BitVec.toNat_ofNat, Nat.mod_eq_of_lt (by omega), bias]
        simp
        omega
      refine positive_unpack (fun ones => ?_) (Or.inl fun zeros => ?_)
      · rw [ones] at biased
        have greatest : (-1#11).toNat = 2047 := by decide
        have := greatest.symm.trans biased
        omega
      · rw [zeros] at biased
        have least : (0#11).toNat = 0 := by decide
        have := least.symm.trans biased
        omega
    · rename_i few
      have short : m < 2 ^ 52 := by
        refine (Nat.log2_lt pos.ne').mp ?_
        have : m.log2 < 53 := (Nat.log2_lt pos.ne').mpr bits
        have : m.log2 + 1 ≠ 53 := few
        omega
      refine positive_unpack (by decide) (Or.inr fun zeros => ?_)
      have same := congrArg BitVec.toNat zeros
      rw [BitVec.toNat_ofNat, Nat.mod_eq_of_lt short] at same
      exact absurd same pos.ne'

/-! ## Rounding numbers above zero -/

/-- Rounding a mantissa takes nothing away. -/
theorem mantissa_le_roundedMantissa (em : ExtendedMantissa) : em.mantissa ≤ em.roundedMantissa := by
  obtain ⟨m, roundBit, stickyBit⟩ := em
  cases roundBit <;> cases stickyBit <;>
    simp only [ExtendedMantissa.roundedMantissa, ExtendedMantissa.accuracy, Accuracy.roundToNearestEven] <;> omega

/-- The target exponent leaves something of a number that is not too small, and no more bits than a double has. -/
theorem shift_bounds {n : Nat} {e : Int} (pos : 0 < n) (low : -1074 ≤ e + n.log2) :
    0 < (shiftToTargetExponent Format.binary64 n e .exact).1.mantissa
      ∧ (shiftToTargetExponent Format.binary64 n e .exact).1.mantissa < 2 ^ 53
      ∧ -1074 ≤ (shiftToTargetExponent Format.binary64 n e .exact).2 := by
  obtain ⟨exponent_eq, mantissa_eq⟩ := shiftToTargetExponent_eq n e
  rw [exponent_eq, mantissa_eq]
  refine ⟨Nat.div_pos ?_ (Nat.two_pow_pos _), (Nat.div_lt_iff_lt_mul (Nat.two_pow_pos _)).mpr ?_, by omega⟩
  · calc 2 ^ (max ((n.log2 : Int) + 1 + e - 53) (-1074) - e).toNat
      _ ≤ 2 ^ n.log2 := Nat.pow_le_pow_right (by omega) (by omega)
      _ ≤ n := Nat.log2_self_le pos.ne'
  · rw [← Nat.pow_add]
    exact Nat.lt_of_lt_of_le Nat.lt_log2_self (Nat.pow_le_pow_right (by omega) (by omega))

/-- A number above zero that is not too small is rounded to one. -/
theorem roundWithAccuracy_positive {n : Nat} {e : Int} (pos : 0 < n) (low : -1074 ≤ e + n.log2) :
    Positive (Float.Model.pack (roundWithAccuracy Format.binary64 .positive n e .exact)).unpack := by
  obtain ⟨first_pos, -, first_low⟩ := shift_bounds pos low
  rw [roundWithAccuracy]
  generalize shiftToTargetExponent Format.binary64 n e .exact = first at first_pos first_low
  obtain ⟨em, e₁⟩ := first
  have rounded_pos : 0 < em.roundedMantissa := Nat.lt_of_lt_of_le first_pos (mantissa_le_roundedMantissa em)
  obtain ⟨second_pos, bits, second_low⟩ := shift_bounds (e := e₁) rounded_pos (by simp only at first_low; omega)
  simp only [dif_neg second_pos.ne']
  exact positive_pack second_pos bits second_low

theorem round_positive {n : Nat} {e : Int} (pos : 0 < n) (low : -1074 ≤ e) :
    Positive (Float.Model.pack (round Format.binary64 .positive n e)).unpack := by
  rw [UnpackedFloat.round]
  simp only [decreaseExponent]
  generalize shift : (e - Format.binary64.targetExponent (totalExponent n e)).toNat = k
  rw [targetExponent_binary64] at shift
  have scaled : 0 < n <<< k := by
    rw [Nat.shiftLeft_eq]
    exact Nat.mul_pos pos (Nat.two_pow_pos k)
  have log_le : k ≤ (n <<< k).log2 := by
    rw [Nat.le_log2 scaled.ne', Nat.shiftLeft_eq]
    exact Nat.le_mul_of_pos_left _ pos
  exact roundWithAccuracy_positive scaled (by omega)

/-! ## Differences -/

/-- The order by exponent and mantissa is that of the mantissas at the same exponent. -/
theorem scaled_lt {m m' : Nat} {e e' : Int} (canonical : IsCanonical m e) (canonical' : IsCanonical m' e')
    (before : (compare e e').then (compare m m') = .lt) :
    m <<< (e - min e e').toNat < m' <<< (e' - min e e').toNat := by
  rw [Ordering.then_eq_lt, Int.compare_eq_lt, Int.compare_eq_eq, Nat.compare_eq_lt] at before
  rw [Nat.shiftLeft_eq, Nat.shiftLeft_eq]
  rcases before with lower | ⟨rfl, smaller⟩
  · -- the greater exponent is not the least one
    have full : 2 ^ 52 ≤ m' := by
      have := canonical.low
      rcases canonical'.full with least | full
      · omega
      · exact full
    have shift : (e - min e e').toNat = 0 := by omega
    have shift' : (e' - min e e').toNat = (e' - min e e').toNat - 1 + 1 := by omega
    rw [shift, shift']
    calc m * 2 ^ 0
      _ < 2 ^ 52 * 2 := by have := canonical.bits; omega
      _ ≤ m' * 2 := Nat.mul_le_mul_right 2 full
      _ ≤ m' * 2 ^ ((e' - min e e').toNat - 1 + 1) := Nat.mul_le_mul_left _ (Nat.le_self_pow (by omega) 2)
  · exact Nat.mul_lt_mul_of_pos_right smaller (Nat.two_pow_pos _)

/-- The difference of a number and a smaller one is above zero. -/
theorem positive_sub_finite {s s' : Sign} {m m' : Nat} {e e' : Int} {pos : 0 < m} {pos' : 0 < m'}
    (canonical : IsCanonical m e) (canonical' : IsCanonical m' e')
    (before : (UnpackedFloat.finite s m e pos).compare (.finite s' m' e' pos') = some .lt) :
    Positive (Float.Model.pack
      (UnpackedFloat.sub Format.binary64 (.finite s' m' e' pos') (.finite s m e pos))).unpack := by
  -- both mantissas are brought to the smaller exponent
  have low : -1074 ≤ min e' e := Int.le_min.mpr ⟨canonical'.low, canonical.low⟩
  have some_left : 0 < m <<< (e - min e' e).toNat := by
    rw [Nat.shiftLeft_eq]
    exact Nat.mul_pos pos (Nat.two_pow_pos _)
  have some_left' : 0 < m' <<< (e' - min e' e).toNat := by
    rw [Nat.shiftLeft_eq]
    exact Nat.mul_pos pos' (Nat.two_pow_pos _)
  have above : 0 < s'.apply (m' <<< (e' - min e' e).toNat : Nat) - s.apply (m <<< (e - min e' e).toNat : Nat) := by
    cases s with
    | negative =>
      cases s' with
      | negative =>
        have larger : ((compare e e').then (compare m m')).swap = .lt := Option.some.inj before
        rw [Ordering.swap_then, ← Std.OrientedOrd.eq_swap, ← Std.OrientedOrd.eq_swap] at larger
        have := scaled_lt canonical' canonical larger
        show 0 < -((m' <<< (e' - min e' e).toNat : Nat) : Int) - -((m <<< (e - min e' e).toNat : Nat) : Int)
        omega
      | positive =>
        show 0 < ((m' <<< (e' - min e' e).toNat : Nat) : Int) - -((m <<< (e - min e' e).toNat : Nat) : Int)
        omega
    | positive =>
      cases s' with
      | negative => exact absurd before (by simp [UnpackedFloat.compare])
      | positive =>
        have smaller : (compare e e').then (compare m m') = .lt := Option.some.inj before
        have := scaled_lt canonical canonical' smaller
        rw [min_comm e e'] at this
        show 0 < ((m' <<< (e' - min e' e).toNat : Nat) : Int) - ((m <<< (e - min e' e).toNat : Nat) : Int)
        omega
  show Positive (Float.Model.pack (UnpackedFloat.normalize Format.binary64 _ (min e' e) .positive)).unpack
  rw [UnpackedFloat.normalize, Int.compare_eq_gt.mpr above]
  exact round_positive (Int.lt_toNat.mpr above) low

theorem positive_pack_infinity : Positive (Float.Model.pack (.infinity .positive)).unpack := .infinity

/-- The difference of a value and a smaller one is above zero. -/
theorem positive_sub {x y : Float.Model} (before : x.unpack.compare y.unpack = some .lt) : Positive (y.sub x).unpack := by
  rw [Float.Model.sub]
  generalize parts : x.unpack = u at before
  generalize parts' : y.unpack = v at before
  cases u with
  | notANumber => exact absurd before (by simp [UnpackedFloat.compare])
  | infinity s =>
    cases s with
    | positive =>
      cases v with
      | infinity s' => cases s' <;> exact absurd before (by decide)
      | notANumber | zero s' | finite s' m' e' pos' => exact absurd before (by simp [UnpackedFloat.compare])
    | negative =>
      cases v with
      | notANumber => exact absurd before (by decide)
      | infinity s' =>
        cases s' with
        | positive => exact positive_pack_infinity
        | negative => exact absurd before (by decide)
      | zero s' | finite s' m' e' pos' => exact positive_pack_infinity
  | zero s =>
    cases v with
    | notANumber => exact absurd before (by simp [UnpackedFloat.compare])
    | infinity s' =>
      cases s' with
      | positive => exact positive_pack_infinity
      | negative => exact absurd before (by simp [UnpackedFloat.compare])
    | zero s' => exact absurd before (by simp [UnpackedFloat.compare])
    | finite s' m' e' pos' =>
      have canonical' := isCanonical_of_unpack parts'
      cases s' with
      | positive => exact positive_pack pos' canonical'.bits canonical'.low
      | negative => exact absurd before (by simp [UnpackedFloat.compare])
  | finite s m e pos =>
    have canonical := isCanonical_of_unpack parts
    cases v with
    | notANumber => exact absurd before (by simp [UnpackedFloat.compare])
    | infinity s' =>
      cases s' with
      | positive => exact positive_pack_infinity
      | negative => exact absurd before (by simp [UnpackedFloat.compare])
    | zero s' =>
      cases s with
      | positive => exact absurd before (by simp [UnpackedFloat.compare])
      | negative => exact positive_pack pos canonical.bits canonical.low
    | finite s' m' e' pos' => exact positive_sub_finite canonical (isCanonical_of_unpack parts') before

theorem float_sub_pos_of_lt {x y : Float} (smaller : x < y) : 0 < y - x := by
  rw [positive_iff]
  exact positive_sub (float_lt_iff.mp smaller)

/-! ## Counts -/

/-- The product of a double above zero and one. -/
theorem positive_mul_one {x : Float.Model} (positive : Positive x.unpack) :
    Positive (x.mul (Float.ofBits 4607182418800017408).toModel).unpack := by
  rw [Float.Model.mul]
  have one : (Float.ofBits 4607182418800017408).toModel.unpack = .finite .positive (2 ^ 52) (-52) (by decide) := rfl
  rw [one]
  generalize parts : x.unpack = u at positive
  cases positive with
  | infinity => exact positive_pack_infinity
  | finite m e pos =>
    refine roundWithAccuracy_positive (Nat.mul_pos pos (by decide)) ?_
    have log_le : 52 ≤ (m * 2 ^ 52).log2 := by
      rw [Nat.le_log2 (by omega)]
      omega
    have := (isCanonical_of_unpack parts).low
    omega

/-- A number of things is above zero if there are some. -/
theorem float_ofNat_pos {n : Nat} (pos : 0 < n) : 0 < Float.ofInt n := by
  show 0 < Float.ofScientific n false 0
  rw [positive_iff, Float.ofScientific]
  split
  · rename_i few
    have same : n.toUInt64.toNat = n := Nat.mod_eq_of_lt (by omega)
    refine positive_mul_one ?_
    show Positive (Float.Model.pack (UnpackedFloat.normalize Format.binary64 (n.toUInt64.toNat : Int) 0 .positive)).unpack
    rw [same, UnpackedFloat.normalize, Int.compare_eq_gt.mpr (by omega)]
    exact round_positive (by omega) (by decide)
  · have bits : Format.binary64.mantissaBits = 53 := rfl
    have sign : Sign.positive * Sign.positive = .positive := rfl
    have log_le : 53 ≤ (n <<< 53).log2 := by
      rw [Nat.shiftLeft_eq, Nat.le_log2 (by omega)]
      exact Nat.le_mul_of_pos_left _ pos
    show Positive (Float.Model.pack (UnpackedFloat.ofScientific Format.binary64 n 0)).unpack
    rw [UnpackedFloat.ofScientific, dif_neg pos.ne', if_neg (by decide), if_neg (by simp), if_pos (by decide),
      UnpackedFloat.mul]
    simp only [Int.toNat_zero, pow_zero, mul_one, bits, sign]
    refine roundWithAccuracy_positive ?_ ?_
    · rw [Nat.shiftLeft_eq]
      omega
    · omega

/-! ## The laws -/

instance : Scale Float where
  isDefined_of_le _ _ := not_isNaN_of_float_le
  not_lt_iff x y hx hy := by
    have hx : x.isNaN = false := hx
    have hy : y.isNaN = false := hy
    rw [float_not_lt_iff, hx, hy]
    simp
  le_of_lt x y lt := by
    rw [float_lt_iff] at lt
    rw [float_le_iff, lt]
    rfl
  le_trans _ _ _ := float_le_trans
  isUndefined_zero := by decide
  sub_pos_of_lt _ _ := float_sub_pos_of_lt
  ofNat_pos _ := float_ofNat_pos

end Leftover
