/-
# Sums and differences of doubles

A sum of doubles is rounded to a double next to it. No double lies between the two, so the sum does not fall below a
double that it reaches, nor rise above one that it stays below. What is added to a double, if it is not negative, does
not make it smaller. Of two doubles of one place in the order neither is away from the other.

* `scaled`, `scaled_lt_of_place` : the order of doubles as one of numbers
* `IsNextTo`, `roundWithAccuracy_isNextTo`, `round_isNextTo` : where rounding leads
* `unpack_pack` : a double that is packed and unpacked again
* `float_le_add` : sums
* `float_sub_congr`, `float_sub_self` : differences
-/
import Leftover.Proofs.DoubleScale

namespace Leftover

open Float.Model Float.Model.UnpackedFloat

/-! ## Numbers -/

/-- The number of a mantissa and an exponent. -/
def scaled (m : Nat) (e : Int) : ℚ := m * 2 ^ e

theorem scaled_shiftLeft (m : Nat) {e f : Int} (low : f ≤ e) : scaled (m <<< (e - f).toNat) f = scaled m e := by
  have split : e = f + ((e - f).toNat : Nat) := by omega
  rw [scaled, scaled, Nat.shiftLeft_eq]
  conv_rhs => rw [split, zpow_add₀ two_ne_zero, zpow_natCast]
  push_cast
  ring

theorem scaled_le_scaled {m m' : Nat} (e : Int) : scaled m e ≤ scaled m' e ↔ m ≤ m' := by
  rw [scaled, scaled, mul_le_mul_iff_left₀ (zpow_pos two_pos e), Nat.cast_le]

theorem scaled_lt_scaled {m m' : Nat} (e : Int) : scaled m e < scaled m' e ↔ m < m' := by
  rw [← not_le, ← not_le, scaled_le_scaled]

/-- Doubles are ordered as numbers by exponent and mantissa. -/
theorem scaled_lt_of_place {m m' : Nat} {e e' : Int} (canonical : IsCanonical m e) (canonical' : IsCanonical m' e')
    (before : toLex (e, (m : Int)) < toLex (e', (m' : Int))) : scaled m e < scaled m' e' := by
  have shifted := scaled_lt canonical canonical' (compare_numbers.mpr before)
  rw [← scaled_shiftLeft m (Int.min_le_left e e'), ← scaled_shiftLeft m' (Int.min_le_right e e'), scaled_lt_scaled]
  exact shifted

theorem place_le_of_scaled {m m' : Nat} {e e' : Int} (canonical : IsCanonical m e) (canonical' : IsCanonical m' e')
    (le : scaled m e ≤ scaled m' e') : toLex (e, (m : Int)) ≤ toLex (e', (m' : Int)) := by
  by_contra after
  exact absurd le (not_le.mpr (scaled_lt_of_place canonical' canonical (not_le.mp after)))

/-! ## Rounding -/

/-- A mantissa and an exponent as they are after rounding a number: no double lies between the two. -/
structure IsNextTo (x : ℚ) (m : Nat) (e : Int) : Prop where
  bits : m < 2 ^ 53
  low : -1074 ≤ e
  full : e = -1074 ∨ 2 ^ 52 ≤ m
  above : ∀ {m' : Nat} {e' : Int}, IsCanonical m' e' → scaled m' e' ≤ x → scaled m' e' ≤ scaled m e
  below : ∀ {m' : Nat} {e' : Int}, IsCanonical m' e' → x < scaled m' e' → scaled m e ≤ scaled m' e'

section

variable {x : ℚ} {q : Nat} {t : Int} (full : t = -1074 ∨ 2 ^ 52 ≤ q) {m : Nat} {e : Int} (canonical : IsCanonical m e)

include full canonical

/-- A double with a lower exponent than a full mantissa has is smaller. -/
theorem scaled_lt_of_exponent_lt (lower : e < t) : scaled m e < scaled q t := by
  have full : 2 ^ 52 ≤ q := full.resolve_left (by have := canonical.low; omega)
  have shift : (t - e).toNat = (t - e).toNat - 1 + 1 := by omega
  rw [← scaled_shiftLeft q lower.le, scaled_lt_scaled, Nat.shiftLeft_eq, shift]
  calc m
    _ < 2 ^ 52 * 2 := by have := canonical.bits; omega
    _ ≤ q * 2 := Nat.mul_le_mul_right 2 full
    _ ≤ q * 2 ^ ((t - e).toNat - 1 + 1) := Nat.mul_le_mul_left _ (Nat.le_self_pow (by omega) 2)

/-- A double that a number reaches is reached by the number without its last bits. -/
theorem le_scaled_floor (less : x < scaled (q + 1) t) (le : scaled m e ≤ x) : scaled m e ≤ scaled q t := by
  rcases lt_or_ge e t with lower | higher
  · exact (scaled_lt_of_exponent_lt full canonical lower).le
  · have between := le.trans_lt less
    rw [← scaled_shiftLeft m higher, scaled_lt_scaled] at between
    rw [← scaled_shiftLeft m higher, scaled_le_scaled]
    omega

/-- A double that a number stays below is not passed by rounding the number up. -/
theorem scaled_ceil_le (le : scaled q t ≤ x) (less : x < scaled m e) : scaled (q + 1) t ≤ scaled m e := by
  rcases lt_or_ge e t with lower | higher
  · exact absurd (le.trans_lt less) (scaled_lt_of_exponent_lt full canonical lower).asymm
  · have between := le.trans_lt less
    rw [← scaled_shiftLeft m higher, scaled_lt_scaled] at between
    rw [← scaled_shiftLeft m higher, scaled_le_scaled]
    omega

end

/-- What is left of a number at its target exponent, and the number between this and the next mantissa. -/
theorem shiftToTargetExponent_bounds {n : Nat} {e : Int} (pos : 0 < n) (fine : 52 ≤ n.log2 ∨ e ≤ -1074)
    {em : ExtendedMantissa} {t : Int} (shifted : shiftToTargetExponent Format.binary64 n e .exact = (em, t)) :
    scaled em.mantissa t ≤ scaled n e ∧ scaled n e < scaled (em.mantissa + 1) t ∧ (t = -1074 ∨ 2 ^ 52 ≤ em.mantissa) := by
  obtain ⟨exponent_eq, mantissa_eq⟩ := shiftToTargetExponent_eq n e
  rw [shifted] at exponent_eq mantissa_eq
  simp only at exponent_eq mantissa_eq
  have shift : (t - e).toNat = (max ((n.log2 : Int) + 1 + e - 53) (-1074) - e).toNat := by omega
  rw [← shift] at mantissa_eq
  have higher : e ≤ t := by omega
  rw [← scaled_shiftLeft _ higher, ← scaled_shiftLeft _ higher, scaled_le_scaled, scaled_lt_scaled, Nat.shiftLeft_eq,
    Nat.shiftLeft_eq, mantissa_eq]
  refine ⟨Nat.div_mul_le_self _ _, ?_, ?_⟩
  · rw [mul_comm]
    exact Nat.lt_mul_div_succ n (Nat.two_pow_pos _)
  · by_cases least : t = -1074
    · exact Or.inl least
    · right
      rw [Nat.le_div_iff_mul_le (Nat.two_pow_pos _), ← Nat.pow_add]
      calc 2 ^ (52 + (t - e).toNat)
        _ ≤ 2 ^ n.log2 := Nat.pow_le_pow_right (by omega) (by omega)
        _ ≤ n := Nat.log2_self_le pos.ne'

/-- A mantissa that rounding up has given one bit too many loses it again, without another change. -/
theorem scaled_shiftToTargetExponent {n : Nat} {e : Int} (fits : n ≤ 2 ^ 53) (low : -1074 ≤ e)
    (full : e = -1074 ∨ 2 ^ 52 ≤ n) {em : ExtendedMantissa} {t : Int}
    (shifted : shiftToTargetExponent Format.binary64 n e .exact = (em, t)) :
    scaled em.mantissa t = scaled n e ∧ (t = -1074 ∨ 2 ^ 52 ≤ em.mantissa) := by
  obtain ⟨exponent_eq, mantissa_eq⟩ := shiftToTargetExponent_eq n e
  rw [shifted] at exponent_eq mantissa_eq
  simp only at exponent_eq mantissa_eq
  rcases Nat.lt_or_eq_of_le fits with short | rfl
  · have few := log2_le_of_lt (k := 52) short
    have none : (max ((n.log2 : Int) + 1 + e - 53) (-1074) - e).toNat = 0 := by omega
    rw [none] at exponent_eq mantissa_eq
    rw [Nat.pow_zero, Nat.div_one] at mantissa_eq
    rw [Int.natCast_zero, Int.add_zero] at exponent_eq
    rw [mantissa_eq, exponent_eq]
    exact ⟨rfl, full⟩
  · have one : (max (((2 ^ 53 : Nat).log2 : Int) + 1 + e - 53) (-1074) - e).toNat = 1 := by
      rw [Nat.log2_two_pow]
      omega
    rw [one] at exponent_eq mantissa_eq
    have higher : e ≤ t := by omega
    have shift : (t - e).toNat = 1 := by omega
    rw [← scaled_shiftLeft _ higher, shift, mantissa_eq]
    exact ⟨by norm_num [Nat.shiftLeft_eq], Or.inr (by norm_num)⟩

/-- A number that is not too small is rounded to a double next to it. -/
theorem roundWithAccuracy_isNextTo {s s' : Sign} {n m : Nat} {e t : Int} {pos : 0 < m} (positive : 0 < n)
    (low : -1074 ≤ e + n.log2) (fine : 52 ≤ n.log2 ∨ e ≤ -1074)
    (rounded : roundWithAccuracy Format.binary64 s n e .exact = .finite s' m t pos) : IsNextTo (scaled n e) m t := by
  obtain ⟨first_pos, first_bits, first_low⟩ := shift_bounds positive low
  generalize first : shiftToTargetExponent Format.binary64 n e .exact = r at first_pos first_bits first_low
  obtain ⟨em, e₁⟩ := r
  simp only at first_pos first_bits first_low
  obtain ⟨le, less, first_full⟩ := shiftToTargetExponent_bounds positive fine first
  have at_least := mantissa_le_roundedMantissa em
  have at_most := roundedMantissa_le em
  obtain ⟨-, bits, second_low⟩ := shift_bounds (n := em.roundedMantissa) (e := e₁) (by omega) (by omega)
  generalize second : shiftToTargetExponent Format.binary64 em.roundedMantissa e₁ .exact = r at bits second_low
  obtain ⟨em', e₂⟩ := r
  obtain ⟨same, full⟩ := scaled_shiftToTargetExponent (by omega) first_low (by omega) second
  -- the result is the second mantissa with its exponent
  rw [roundWithAccuracy, first] at rounded
  simp only [second] at rounded
  split at rounded
  · exact absurd rounded (by simp)
  simp only [UnpackedFloat.finite.injEq] at rounded
  obtain ⟨-, rfl, rfl⟩ := rounded
  refine ⟨bits, second_low, full, fun canonical reached => ?_, fun canonical reached => ?_⟩
  · rw [same]
    exact (le_scaled_floor first_full canonical less reached).trans ((scaled_le_scaled e₁).mpr at_least)
  · rw [same]
    exact ((scaled_le_scaled e₁).mpr at_most).trans (scaled_ceil_le first_full canonical le reached)

theorem log2_shiftLeft {n : Nat} (pos : 0 < n) (k : Nat) : (n <<< k).log2 = n.log2 + k := by
  rw [Nat.shiftLeft_eq, Nat.log2_eq_iff (Nat.mul_pos pos (Nat.two_pow_pos k)).ne', Nat.add_right_comm, Nat.pow_add, Nat.pow_add]
  exact ⟨Nat.mul_le_mul_right _ (Nat.log2_self_le pos.ne'), Nat.mul_lt_mul_of_pos_right Nat.lt_log2_self (Nat.two_pow_pos k)⟩

theorem round_isNextTo {s s' : Sign} {n m : Nat} {e t : Int} {pos : 0 < m} (positive : 0 < n) (low : -1074 ≤ e)
    (rounded : round Format.binary64 s n e = .finite s' m t pos) : IsNextTo (scaled n e) m t := by
  rw [UnpackedFloat.round, targetExponent_binary64, totalExponent] at rounded
  simp only [decreaseExponent] at rounded
  generalize shift : (e - max ((n.log2 : Int) + 1 + e - 53) (-1074)).toNat = k at rounded
  have log_eq := log2_shiftLeft positive k
  have same : scaled (n <<< k) (e - k) = scaled n e := by
    have := scaled_shiftLeft n (f := e - k) (e := e) (by omega)
    rwa [show (e - (e - k)).toNat = k by omega] at this
  have scaled_pos : 0 < n <<< k := by
    rw [Nat.shiftLeft_eq]
    exact Nat.mul_pos positive (Nat.two_pow_pos k)
  rw [← same]
  exact roundWithAccuracy_isNextTo scaled_pos (by omega) (by omega) rounded

/-! ## Packing -/

section

variable {s : Sign} {e : BitVec Format.binary64.exponentBits} {m : BitVec Format.binary64.mantissaBitsWithoutImplicit}

theorem sign_packComponents : Sign.ofBitVec (unpackSign (packComponents Format.binary64 s e m)) = s := by
  rw [unpackSign_packComponents, Sign.ofBitVec_toBitVec]

/-- Parts whose exponent is neither the greatest nor the least one: the first bit of the mantissa is implied. -/
theorem unpack_of_normal (finite : e ≠ -1#_) (normal : e ≠ 0#_) :
    ∃ pos, UnpackedFloat.unpack Format.binary64 (packComponents Format.binary64 s e m)
      = .finite s (2 ^ 52 + m.toNat) ((e.toNat : Int) - 1075) pos := by
  have implied : (1#1 ++ m).toNat = 2 ^ 52 + m.toNat := by
    have sum := Nat.two_pow_add_eq_or_of_lt m.isLt 1
    rw [BitVec.toNat_append, Nat.shiftLeft_eq, mul_comm]
    exact sum.symm
  rw [UnpackedFloat.unpack]
  simp only [unpackExponent_packComponents, unpackMantissa_packComponents, sign_packComponents, if_neg finite, if_neg normal,
    implied]
  exact ⟨by positivity, rfl⟩

/-- Parts with the least exponent. -/
theorem unpack_of_subnormal (nonzero : m ≠ 0#_) :
    ∃ pos, UnpackedFloat.unpack Format.binary64 (packComponents Format.binary64 s 0#_ m) = .finite s m.toNat (-1074) pos := by
  have pos : 0 < m.toNat := Nat.pos_of_ne_zero fun zero => nonzero (BitVec.eq_of_toNat_eq zero)
  refine ⟨pos, ?_⟩
  rw [UnpackedFloat.unpack]
  simp only [unpackExponent_packComponents, unpackMantissa_packComponents, sign_packComponents]
  rw [if_neg (by decide), if_pos trivial, dif_neg nonzero]
  rfl

end

/-- A double is the same after packing and unpacking it. -/
theorem unpack_pack {s : Sign} {m : Nat} {e : Int} {pos : 0 < m} (canonical : IsCanonical m e) :
    (Float.Model.pack (.finite s m e pos)).unpack = .finite s m e pos := by
  have bias : (Format.binary64.exponentBias : Int) = 1023 := by decide
  obtain ⟨bits, low, high, full⟩ := canonical
  have fits : ¬2 ^ Format.binary64.exponentBits
      ≤ (e + Format.binary64.exponentBias + Format.binary64.mantissaBitsWithoutImplicit).toNat + 1 := by
    rw [bias]
    simp
    omega
  show UnpackedFloat.unpack Format.binary64 (UnpackedFloat.pack Format.binary64 (.finite s m e pos)) = _
  rw [UnpackedFloat.pack]
  simp only [if_neg fits]
  split
  · rename_i many
    have many : m.log2 + 1 = 53 := many
    have full : 2 ^ 52 ≤ m := (Nat.le_log2 pos.ne').mp (by omega)
    have biased : (BitVec.ofNat Format.binary64.exponentBits
        (e + Format.binary64.exponentBias + Format.binary64.mantissaBitsWithoutImplicit).toNat).toNat = (e + 1075).toNat := by
      rw [BitVec.toNat_ofNat, Nat.mod_eq_of_lt (by omega), bias]
      simp
      omega
    have shortened : (BitVec.ofNat Format.binary64.mantissaBitsWithoutImplicit m).toNat = m - 2 ^ 52 := by
      rw [BitVec.toNat_ofNat]
      show m % 2 ^ 52 = m - 2 ^ 52
      omega
    generalize BitVec.ofNat Format.binary64.exponentBits
      (e + Format.binary64.exponentBias + Format.binary64.mantissaBitsWithoutImplicit).toNat = exponent at biased ⊢
    have finite : exponent ≠ -1#_ := by
      rintro rfl
      have greatest : (-1#11).toNat = 2047 := by decide
      have := greatest.symm.trans biased
      omega
    have normal : exponent ≠ 0#_ := by
      rintro rfl
      have least : (0#11).toNat = 0 := by decide
      have := least.symm.trans biased
      omega
    obtain ⟨pos', same⟩ := unpack_of_normal (s := s) (m := BitVec.ofNat _ m) finite normal
    rw [same]
    simp only [UnpackedFloat.finite.injEq, biased, shortened, true_and]
    omega
  · rename_i few
    have short : m < 2 ^ 52 := by
      refine (Nat.log2_lt pos.ne').mp ?_
      have : m.log2 < 53 := (Nat.log2_lt pos.ne').mpr bits
      have : m.log2 + 1 ≠ 53 := few
      omega
    have kept : (BitVec.ofNat Format.binary64.mantissaBitsWithoutImplicit m).toNat = m := by
      rw [BitVec.toNat_ofNat, Nat.mod_eq_of_lt short]
    have nonzero : BitVec.ofNat Format.binary64.mantissaBitsWithoutImplicit m ≠ 0#_ := by
      intro zero
      rw [zero] at kept
      exact pos.ne kept
    obtain ⟨pos', same⟩ := unpack_of_subnormal (s := s) nonzero
    rw [same]
    simp only [UnpackedFloat.finite.injEq, kept, true_and]
    omega

/-! ## Sums -/

theorem place_le_positive {m m' : Nat} {e e' : Int} {pos : 0 < m} {pos' : 0 < m'}
    (le : toLex (e, (m : Int)) ≤ toLex (e', (m' : Int))) :
    doublePlace (.finite .positive m e pos) ≤ doublePlace (.finite .positive m' e' pos') :=
  Prod.Lex.toLex_le_toLex.mpr (Or.inr ⟨rfl, le⟩)

theorem place_le_negative {m m' : Nat} {e e' : Int} {pos : 0 < m} {pos' : 0 < m'}
    (le : toLex (e', (m' : Int)) ≤ toLex (e, (m : Int))) :
    doublePlace (.finite .negative m e pos) ≤ doublePlace (.finite .negative m' e' pos') := by
  refine Prod.Lex.toLex_le_toLex.mpr (Or.inr ⟨rfl, ?_⟩)
  rw [Prod.Lex.toLex_le_toLex] at le ⊢
  simp only at le ⊢
  omega

theorem place_le_of_kind {u v : UnpackedFloat} {i j : Int} {a b : ℤ ×ₗ ℤ} (first : doublePlace u = toLex (i, a))
    (second : doublePlace v = toLex (j, b)) (lower : i < j) : doublePlace u ≤ doublePlace v := by
  rw [first, second, Prod.Lex.toLex_le_toLex]
  exact Or.inl lower

/-- A number that reaches a double is rounded to one that is not below it. -/
theorem place_le_round_positive {n m : Nat} {e f : Int} {pos : 0 < m} (canonical : IsCanonical m e) (positive : 0 < n)
    (low : -1074 ≤ f) (le : scaled m e ≤ scaled n f) :
    doublePlace (.finite .positive m e pos) ≤ doublePlace (Float.Model.pack (round Format.binary64 .positive n f)).unpack := by
  have above := round_positive positive low
  rcases round_cases .positive n f with zero | ⟨m', e', pos', finite⟩
  · rw [zero] at above
    exact absurd above (by rintro ⟨⟩)
  · have next := round_isNextTo positive low finite
    rw [finite]
    by_cases large : 971 < e'
    · rw [pack_of_large pos' large]
      exact place_le_of_kind rfl rfl (by decide)
    · have canonical' : IsCanonical m' e' := ⟨next.bits, next.low, by omega, next.full⟩
      rw [unpack_pack canonical']
      exact place_le_positive (place_le_of_scaled canonical canonical' (next.above canonical le))

/-- A number that stays below a double is rounded to one that is not above it; and so below zero, the other way round. -/
theorem place_le_round_negative {n m : Nat} {e f : Int} {pos : 0 < m} (canonical : IsCanonical m e) (positive : 0 < n)
    (low : -1074 ≤ f) (under : f ≤ e) (less : scaled n f < scaled m e) :
    doublePlace (.finite .negative m e pos) ≤ doublePlace (Float.Model.pack (round Format.binary64 .negative n f)).unpack := by
  rcases round_cases .negative n f with zero | ⟨m', e', pos', finite⟩
  · rw [zero]
    exact place_le_of_kind rfl rfl (by decide)
  · have next := round_isNextTo positive low finite
    have high : e' ≤ e := by
      refine exponent_round under canonical.low ?_ finite
      rw [← scaled_shiftLeft m under, scaled_lt_scaled, Nat.shiftLeft_eq] at less
      have room : m * 2 ^ (e - f).toNat ≤ (2 ^ 53 - 1) * 2 ^ (e - f).toNat :=
        Nat.mul_le_mul_right _ (by have := canonical.bits; omega)
      omega
    have canonical' : IsCanonical m' e' := ⟨next.bits, next.low, high.trans canonical.high, next.full⟩
    rw [finite, unpack_pack canonical']
    exact place_le_negative (place_le_of_scaled canonical' canonical (next.below canonical less))

/-- A sum that is more than one of the two numbers is rounded to a double that is not below this one. -/
theorem place_le_normalize {s : Sign} {m : Nat} {e f sum : Int} {pos : 0 < m} (canonical : IsCanonical m e)
    (low : -1074 ≤ f) (under : f ≤ e) (less : s.apply (m <<< (e - f).toNat : Nat) < sum) :
    doublePlace (.finite s m e pos)
      ≤ doublePlace (Float.Model.pack (normalize Format.binary64 sum f .positive)).unpack := by
  rw [UnpackedFloat.normalize]
  cases s with
  | positive =>
    have less : ((m <<< (e - f).toNat : Nat) : Int) < sum := less
    have positive : 0 < sum := (Int.natCast_nonneg _).trans_lt less
    rw [Int.compare_eq_gt.mpr positive]
    refine place_le_round_positive canonical (Int.lt_toNat.mpr positive) low ?_
    rw [← scaled_shiftLeft m under, scaled_le_scaled]
    omega
  | negative =>
    have less : -((m <<< (e - f).toNat : Nat) : Int) < sum := less
    split
    · rename_i negative
      have negative : sum < 0 := Int.compare_eq_lt.mp negative
      refine place_le_round_negative canonical (by omega) low under ?_
      rw [← scaled_shiftLeft m under, scaled_lt_scaled]
      omega
    · exact place_le_of_kind rfl rfl (by decide)
    · rename_i positive
      have positive : 0 < sum := Int.compare_eq_gt.mp positive
      have above := round_positive (n := sum.toNat) (by omega) low
      generalize (Float.Model.pack (round Format.binary64 .positive sum.toNat f)).unpack = u at above
      cases above with
      | infinity | finite m' e' pos' => exact place_le_of_kind rfl rfl (by decide)

theorem unpack_pack_infinity : (Float.Model.pack (.infinity .positive)).unpack = .infinity .positive := rfl

/-- A value to which something is added that is not negative does not become smaller. -/
theorem place_le_add {x y : Float.Model} (hx : Ahead x.unpack) (hy : Nonnegative y.unpack) :
    doublePlace x.unpack ≤ doublePlace (x.add y).unpack := by
  rw [Float.Model.add]
  generalize parts : x.unpack = u at hx
  generalize parts' : y.unpack = v at hy
  cases hx with
  | infinity =>
    have sum : UnpackedFloat.add Format.binary64 (.infinity .positive) v = .infinity .positive := by cases hy <;> rfl
    rw [sum, unpack_pack_infinity]
  | zero s =>
    cases hy with
    | infinity =>
      show _ ≤ doublePlace (Float.Model.pack (.infinity .positive)).unpack
      rw [unpack_pack_infinity]
      exact place_le_of_kind rfl rfl (by decide)
    | zero s' => cases s <;> cases s' <;> exact le_of_eq rfl
    | finite m' e' pos' =>
      show _ ≤ doublePlace (Float.Model.pack (.finite .positive m' e' pos')).unpack
      rw [unpack_pack (isCanonical_of_unpack parts')]
      exact place_le_of_kind rfl rfl (by decide)
  | finite s m e pos =>
    have canonical := isCanonical_of_unpack parts
    cases hy with
    | infinity =>
      show _ ≤ doublePlace (Float.Model.pack (.infinity .positive)).unpack
      rw [unpack_pack_infinity]
      cases s <;> exact place_le_of_kind rfl rfl (by decide)
    | zero s' =>
      show _ ≤ doublePlace (Float.Model.pack (.finite s m e pos)).unpack
      rw [unpack_pack canonical]
    | finite m' e' pos' =>
      have canonical' := isCanonical_of_unpack parts'
      refine place_le_normalize canonical (Int.le_min.mpr ⟨canonical.low, canonical'.low⟩) (Int.min_le_left e e') ?_
      have unit : 0 < m' <<< (e' - min e e').toNat := by
        rw [Nat.shiftLeft_eq]
        exact Nat.mul_pos pos' (Nat.two_pow_pos _)
      show _ < s.apply _ + ((m' <<< (e' - min e e').toNat : Nat) : Int)
      omega

theorem float_le_add {x y : Float} (ahead : Ahead x.toModel.unpack) (nonneg : 0 ≤ y) : x ≤ x + y := by
  have nonneg := nonnegative_of_le nonneg
  have sum : Ahead (x + y).toModel.unpack := ahead_add ahead nonneg
  rw [float_le_iff_place (isNaN_of_ahead ahead) (isNaN_of_ahead sum)]
  exact place_le_add ahead nonneg

/-! ## Differences -/

/-- Two doubles of which neither is less have the same parts, or both are zeros. -/
theorem unpack_eq_of_le {x y : Float} (xy : x ≤ y) (yx : y ≤ x) :
    x.toModel.unpack = y.toModel.unpack ∨ ∃ s s', x.toModel.unpack = .zero s ∧ y.toModel.unpack = .zero s' := by
  rw [float_le_iff] at xy yx
  rw [compare_swap] at yx
  have same : x.toModel.unpack.beq y.toModel.unpack = true := by
    rw [UnpackedFloat.beq, beq_iff_eq]
    cases order : x.toModel.unpack.compare y.toModel.unpack with
    | none => simp [order] at xy
    | some o => cases o <;> simp_all
  rcases ((beq_iff_ne_notANumber_and_eq _ _).mp same).2.2 with same | ⟨first, second⟩ | ⟨first, second⟩
  · exact Or.inl same
  · exact Or.inr ⟨_, _, first, second⟩
  · exact Or.inr ⟨_, _, first, second⟩

/-- What is left of a double above zero after taking zero away does not depend on the sign of the zero. -/
theorem sub_zero_eq {u : UnpackedFloat} {s : Sign} (above : UnpackedFloat.compare (.zero s) u = some .lt) (s' : Sign) :
    UnpackedFloat.sub Format.binary64 u (.zero s') = u := by
  cases u with
  | notANumber | infinity s₁ | finite s₁ m e pos => rfl
  | zero s₁ => exact absurd above (by simp [UnpackedFloat.compare])

/-- What is taken away from a larger double may be replaced by what is as large. -/
theorem float_sub_congr {x y z : Float} (above : y < x) (yz : y ≤ z) (zy : z ≤ y) : x - y = x - z := by
  have packed : x.toModel.sub y.toModel = x.toModel.sub z.toModel := by
    rw [Float.Model.sub, Float.Model.sub]
    rcases unpack_eq_of_le yz zy with same | ⟨s, s', first, second⟩
    · rw [same]
    · rw [float_lt_iff, first] at above
      rw [first, second, sub_zero_eq above, sub_zero_eq above]
  exact congrArg Float.ofModel packed

theorem sub_self_eq (u : UnpackedFloat) :
    UnpackedFloat.sub Format.binary64 u u = .zero .positive ∨ UnpackedFloat.sub Format.binary64 u u = .notANumber := by
  cases u with
  | notANumber => exact Or.inr rfl
  | infinity s => cases s <;> exact Or.inr rfl
  | zero s => cases s <;> exact Or.inl rfl
  | finite s m e pos =>
    left
    show normalize Format.binary64 (s.apply _ - s.apply _) (min e e) .positive = _
    rw [sub_self]
    rfl

/-- Of a double taken away from itself zero is left, or nothing that is defined. -/
theorem float_sub_self (x : Float) : x - x = 0 ∨ (x - x).isNaN = true := by
  have difference : x - x = Float.ofModel
      (Float.Model.pack (UnpackedFloat.sub Format.binary64 x.toModel.unpack x.toModel.unpack)) := rfl
  rcases sub_self_eq x.toModel.unpack with zero | undefined
  · rw [difference, zero]
    exact Or.inl rfl
  · rw [difference, undefined]
    exact Or.inr rfl

end Leftover
