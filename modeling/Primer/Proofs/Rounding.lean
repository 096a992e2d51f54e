import Mathlib.Algebra.Order.Ring.Int
import Primer.Numeric.Integer

/-!
# The double of an integer is zero only for zero

A positive number is rounded to a mantissa of 53 bits with an exponent that is not below the one it
was given. So nothing that starts at one or above can be lost on the way to a double, neither by
rounding nor by packing into bits, and the double of an integer other than zero differs from zero
(`Integer.toFloat_beq_zero_iff`).
-/

set_option autoImplicit false

namespace Primer

namespace Rounding

open Float.Model Float.Model.UnpackedFloat

/-! ## Shifting -/

/-- To shift a mantissa to the right is to divide it. -/
theorem mantissa_shift (em : ExtendedMantissa) (k : Nat) :
    (em >>> k).mantissa = em.mantissa / 2 ^ k := by
  induction k with
  | zero => exact (Nat.div_one _).symm
  | succ k ih =>
    change (em >>> k).mantissa / 2 = _
    rw [ih, Nat.div_div_eq_div_mul, Nat.pow_succ]

theorem mantissa_ofMantissaAndAccuracy (m : Nat) (a : Accuracy) :
    (ExtendedMantissa.ofMantissaAndAccuracy m a).mantissa = m := by
  cases a with
  | exact => rfl
  | inexact o => cases o <;> rfl

/-- Rounding does not make a mantissa smaller. -/
theorem le_roundToNearestEven (m : Nat) (a : Accuracy) : m ≤ a.roundToNearestEven m := by
  cases a with
  | exact => exact Nat.le_refl m
  | inexact o =>
    cases o with
    | lt => exact Nat.le_refl m
    | eq => exact Nat.le_add_right m (m % 2)
    | gt => exact Nat.le_succ m

/-- A mantissa of at least 53 bits is shifted until it has 53. -/
theorem shift_target {m : Nat} {e : Int} (hm : 2 ^ 52 ≤ m) (he : -1074 ≤ e) :
    let k := (Format.binary64.targetExponent (totalExponent m e) - e).toNat
    2 ^ 52 ≤ m / 2 ^ k ∧ m / 2 ^ k < 2 ^ 53 := by
  have hzero : m ≠ 0 := by omega
  have hlog : 52 ≤ m.log2 := (Nat.le_log2 hzero).2 hm
  have hk : (Format.binary64.targetExponent (totalExponent m e) - e).toNat = m.log2 - 52 := by
    change (max ((m.log2 : Int) + 1 + e - 53) (-1074) - e).toNat = _
    omega
  have hpos : 0 < 2 ^ (m.log2 - 52) := Nat.two_pow_pos _
  intro k
  rw [show k = m.log2 - 52 from hk, Nat.le_div_iff_mul_le hpos, Nat.div_lt_iff_lt_mul hpos,
    ← Nat.pow_add, ← Nat.pow_add]
  constructor
  · rw [show 52 + (m.log2 - 52) = m.log2 by omega]
    exact Nat.log2_self_le hzero
  · rw [show 53 + (m.log2 - 52) = m.log2 + 1 by omega]
    exact Nat.lt_log2_self

/-- Shifting brings a mantissa of at least 53 bits to 53 and does not lower the exponent. -/
theorem shiftToTargetExponent_bounds {m : Nat} {e : Int} (a : Accuracy) (hm : 2 ^ 52 ≤ m)
    (he : -1074 ≤ e) :
    let shifted := shiftToTargetExponent Format.binary64 m e a
    (2 ^ 52 ≤ shifted.1.mantissa ∧ shifted.1.mantissa < 2 ^ 53) ∧ e ≤ shifted.2 := by
  have hbounds := shift_target hm he
  have hmantissa : (shiftToTargetExponent Format.binary64 m e a).1.mantissa =
      m / 2 ^ (Format.binary64.targetExponent (totalExponent m e) - e).toNat := by
    unfold shiftToTargetExponent shiftToExponent
    rw [mantissa_shift, mantissa_ofMantissaAndAccuracy]
  intro shifted
  rw [show shifted.1.mantissa = _ from hmantissa]
  exact ⟨hbounds, Int.le_add_of_nonneg_right (Int.natCast_nonneg _)⟩

/-! ## Rounding -/

/-- The number is not below `2 ^ (52 + k)` in magnitude, and its mantissa has 53 bits if it is
finite. -/
inductive AtLeast (k : Int) : UnpackedFloat → Prop
  | infinity (s : Sign) : AtLeast k (.infinity s)
  | finite {s : Sign} {m : Nat} {e : Int} {h : 0 < m} (hlow : 2 ^ 52 ≤ m) (hhigh : m < 2 ^ 53)
      (he : k ≤ e) : AtLeast k (.finite s m e h)

theorem AtLeast.mono {k k' : Int} {u : UnpackedFloat} (h : AtLeast k u) (hk : k' ≤ k) :
    AtLeast k' u := by
  cases h with
  | infinity s => exact .infinity s
  | finite hlow hhigh he => exact .finite hlow hhigh (Int.le_trans hk he)

/-- Rounding a mantissa of at least 53 bits does not lower the exponent. -/
theorem atLeast_roundWithAccuracy (s : Sign) {m : Nat} {e : Int} (a : Accuracy)
    (hm : 2 ^ 52 ≤ m) (he : -1074 ≤ e) :
    AtLeast e (roundWithAccuracy Format.binary64 s m e a) := by
  obtain ⟨⟨hlow, -⟩, hfirst⟩ := shiftToTargetExponent_bounds a hm he
  generalize hshifted : shiftToTargetExponent Format.binary64 m e a = shifted at hlow hfirst
  -- rounding up may give one more bit, which the second shift takes off again
  have hrounded : 2 ^ 52 ≤ shifted.1.roundedMantissa :=
    Nat.le_trans hlow (le_roundToNearestEven _ _)
  obtain ⟨⟨hlow, hhigh⟩, hsecond⟩ :=
    shiftToTargetExponent_bounds .exact hrounded (Int.le_trans he hfirst)
  generalize hfinal : shiftToTargetExponent Format.binary64 shifted.1.roundedMantissa shifted.2
    .exact = final at hlow hhigh hsecond
  have hne : final.1.mantissa ≠ 0 := by omega
  have hfinite : roundWithAccuracy Format.binary64 s m e a =
      .finite s final.1.mantissa final.2 (Nat.pos_of_ne_zero hne) := by
    subst hfinal hshifted
    exact dif_neg hne
  rw [hfinite]
  exact .finite hlow hhigh (Int.le_trans hfirst hsecond)

/-- A positive whole number is brought to at least 53 bits before it is rounded. -/
theorem atLeast_round (s : Sign) {n : Nat} (hn : n ≠ 0) :
    AtLeast (-52) (UnpackedFloat.round Format.binary64 s n 0) := by
  have hk : (0 - Format.binary64.targetExponent (totalExponent n 0)).toNat = 52 - n.log2 := by
    change (0 - max ((n.log2 : Int) + 1 + 0 - 53) (-1074)).toNat = _
    omega
  have hbits : 2 ^ 52 ≤ n <<< (52 - n.log2) := by
    rw [Nat.shiftLeft_eq]
    calc 2 ^ 52
        ≤ 2 ^ (n.log2 + (52 - n.log2)) := Nat.pow_le_pow_right (by decide) (by omega)
      _ = 2 ^ n.log2 * 2 ^ (52 - n.log2) := Nat.pow_add ..
      _ ≤ n * 2 ^ (52 - n.log2) := Nat.mul_le_mul_right _ (Nat.log2_self_le hn)
  unfold UnpackedFloat.round decreaseExponent
  simp only [hk]
  have hrounded := atLeast_roundWithAccuracy s (e := 0 - ((52 - n.log2 : Nat) : Int)) .exact hbits
    (by omega)
  exact hrounded.mono (by omega)

/-! ## Packing -/

theorem unpack_packedInfinity (s : Sign) :
    unpack Format.binary64 (packedInfinity Format.binary64 s) = .infinity s := by
  cases s <;> rfl

/-- The exponent of a mantissa of 53 bits is packed with its bias, unless it is too large for a
finite double. -/
theorem pack_finite (s : Sign) {m : Nat} {e : Int} (hpos : 0 < m) (hlow : 2 ^ 52 ≤ m)
    (hhigh : m < 2 ^ 53) :
    UnpackedFloat.pack Format.binary64 (.finite s m e hpos) =
      if 2048 ≤ (e + 1075).toNat + 1 then packedInfinity Format.binary64 s
      else packComponents Format.binary64 s (BitVec.ofNat _ (e + 1075).toNat) (BitVec.ofNat _ m) := by
  have hlog : m.log2 = 52 := (Nat.log2_eq_iff (by omega)).2 ⟨hlow, hhigh⟩
  have hbiased : (e + 1023 + 52).toNat = (e + 1075).toNat := by omega
  change (if 2048 ≤ (e + 1023 + 52).toNat + 1 then packedInfinity Format.binary64 s
    else if m.log2 + 1 = 53 then
      packComponents Format.binary64 s (BitVec.ofNat _ (e + 1023 + 52).toNat) (BitVec.ofNat _ m)
    else packComponents Format.binary64 s 0 (BitVec.ofNat _ m)) = _
  rw [hbiased, hlog, if_pos rfl]

/-- The leading bit is put back where the bits of the exponent are neither all ones nor all
zeros. -/
theorem atLeast_unpack {k : Int} {b : BitVec Format.binary64.numBits}
    (hones : unpackExponent b ≠ -1) (hzeros : unpackExponent b ≠ 0)
    (hk : k ≤ ((unpackExponent b).toNat : Int) - 1075) : AtLeast k (unpack Format.binary64 b) := by
  have hbits : ∃ h, unpack Format.binary64 b = .finite (Sign.ofBitVec (unpackSign b))
      (1#1 ++ unpackMantissa b).toNat ((unpackExponent b).toNat - 1075) h :=
    ⟨_, (if_neg hones).trans (if_neg hzeros)⟩
  obtain ⟨h, hfinite⟩ := hbits
  rw [hfinite]
  refine .finite ?_ (BitVec.isLt _) hk
  rw [BitVec.toNat_append]
  exact Nat.left_le_or

/-- What is packed comes back with at least the exponent that it had. -/
theorem atLeast_unpack_pack {k : Int} {u : UnpackedFloat} (hk : -1074 ≤ k) (h : AtLeast k u) :
    AtLeast k (unpack Format.binary64 (UnpackedFloat.pack Format.binary64 u)) := by
  cases h with
  | infinity s =>
    change AtLeast k (unpack Format.binary64 (packedInfinity Format.binary64 s))
    rw [unpack_packedInfinity]
    exact .infinity s
  | @finite s m e hpos hlow hhigh he =>
    rw [pack_finite s hpos hlow hhigh]
    split
    · rw [unpack_packedInfinity]
      exact .infinity s
    · next hfits =>
      have hfits' : (e + 1075).toNat + 1 < 2048 := Nat.lt_of_not_le hfits
      -- the exponent fits its field, so neither all ones nor all zeros are packed
      have hfield : (BitVec.ofNat Format.binary64.exponentBits (e + 1075).toNat).toNat =
          (e + 1075).toNat := Nat.mod_eq_of_lt (by change _ < 2048; omega)
      apply atLeast_unpack <;> rw [unpackExponent_packComponents]
      · intro hones
        have hmax := congrArg BitVec.toNat hones
        rw [hfield] at hmax
        change _ = 2047 at hmax
        omega
      · intro hzeros
        have hmin := congrArg BitVec.toNat hzeros
        rw [hfield] at hmin
        change _ = 0 at hmin
        omega
      · rw [hfield]
        omega

/-! ## Whole numbers -/

/-- A factor of one loses nothing. -/
theorem atLeast_mul_one {u : UnpackedFloat} {h : 0 < 2 ^ 52} (hu : AtLeast (-52) u) :
    AtLeast (-104) (UnpackedFloat.mul Format.binary64 u (.finite .positive (2 ^ 52) (-52) h)) := by
  cases hu with
  | infinity s => exact .infinity _
  | finite hlow hhigh he =>
    refine (atLeast_roundWithAccuracy _ .exact ?_ (by omega)).mono (by omega)
    exact Nat.le_trans hlow (Nat.le_mul_of_pos_right _ h)

/-- A positive word is not below one as a double. -/
theorem atLeast_ofUInt64 {n : UInt64} (hn : n.toNat ≠ 0) :
    AtLeast (-52) n.toFloat.toModel.unpack := by
  change AtLeast (-52) (unpack Format.binary64 (UnpackedFloat.pack Format.binary64
    (UnpackedFloat.normalize Format.binary64 (n.toNat : Int) 0 .positive)))
  have hpos : compare (n.toNat : Int) 0 = .gt := Int.compare_eq_gt.2 (by omega)
  apply atLeast_unpack_pack (by decide)
  unfold UnpackedFloat.normalize
  rw [hpos]
  exact atLeast_round .positive hn

/-- A positive whole number is not below `2 ^ -52` as it is read. -/
theorem atLeast_ofScientific {n : Nat} (hn : n ≠ 0) :
    AtLeast (-104) (UnpackedFloat.ofScientific Format.binary64 n 0) := by
  have hlarge : ¬(0 : Int) > 2 ^ Format.binary64.exponentBits := by decide
  have hsmall : ¬(0 : Int) < -((2 ^ Format.binary64.exponentBits : Int) + n.log2) := by
    change ¬(0 : Int) < -(2048 + n.log2)
    omega
  have hmantissa : 2 ^ 52 ≤ n <<< 53 * 10 ^ 0 := by
    rw [Nat.pow_zero, Nat.mul_one, Nat.shiftLeft_eq]
    exact Nat.le_trans (by decide) (Nat.le_mul_of_pos_left _ (Nat.pos_of_ne_zero hn))
  have hproduct : UnpackedFloat.ofScientific Format.binary64 n 0 =
      roundWithAccuracy Format.binary64 (.positive * .positive) (n <<< 53 * 10 ^ 0) (-53 + 0)
        .exact :=
    (dif_neg hn).trans ((if_neg hlarge).trans ((if_neg hsmall).trans (if_pos (by decide))))
  rw [hproduct]
  exact (atLeast_roundWithAccuracy _ .exact hmantissa (by decide)).mono (by decide)

theorem unpack_pack (u : UnpackedFloat) :
    (Float.Model.pack u).unpack =
      unpack Format.binary64 (UnpackedFloat.pack Format.binary64 u) := rfl

/-- A product is had from the values of its factors, and rounded. -/
theorem unpack_mul (x y : Float) :
    (x * y).toModel.unpack = unpack Format.binary64 (UnpackedFloat.pack Format.binary64
      (UnpackedFloat.mul Format.binary64 x.toModel.unpack y.toModel.unpack)) :=
  unpack_pack _

/-- The power of ten with exponent zero. -/
theorem unpack_one (h : 0 < Float.exactlyRepresentablePowersOfTen.size) :
    Float.exactlyRepresentablePowersOfTen[0].toModel.unpack =
      .finite .positive (2 ^ 52) (-52) (by decide) := by
  change (Float.ofBits 4607182418800017408).toModel.unpack = _
  rfl

/-- The double of a positive number: below two to the power 53 through a word and a factor of one,
and from there on by rounding it. -/
theorem atLeast_ofNat {n : Nat} (hn : n ≠ 0) : AtLeast (-104) (Float.ofNat n).toModel.unpack := by
  change AtLeast (-104) (Float.ofScientific n false 0).toModel.unpack
  unfold Float.ofScientific
  split
  · next hsmall =>
    have hword : n.toUInt64.toNat = n :=
      UInt64.toNat_ofNat_of_lt' (Nat.lt_trans hsmall.1 (by decide))
    have hdouble : AtLeast (-52) n.toUInt64.toFloat.toModel.unpack :=
      atLeast_ofUInt64 (by rwa [hword])
    simp only [Bool.false_eq_true, if_false]
    rw [unpack_mul, unpack_one]
    exact atLeast_unpack_pack (by decide) (atLeast_mul_one hdouble)
  · exact atLeast_unpack_pack (by decide) (atLeast_ofScientific hn)

theorem AtLeast.neg {k : Int} {u : UnpackedFloat} (h : AtLeast k u) : AtLeast k u.neg := by
  cases h with
  | infinity s => exact .infinity _
  | finite hlow hhigh he => exact .finite hlow hhigh he

/-- What is at least some power of two differs from zero. -/
theorem AtLeast.ne_zero {k : Int} {u : UnpackedFloat} (h : AtLeast k u) :
    u.beq (.zero .positive) = false := by
  cases h with
  | infinity s => cases s <;> rfl
  | @finite s => cases s <;> rfl

/-- The double of an integer other than zero is not below `2 ^ -52` in magnitude. -/
theorem atLeast_ofInt {n : Int} (hn : n ≠ 0) : AtLeast (-104) (Float.ofInt n).toModel.unpack := by
  cases n with
  | ofNat k => exact atLeast_ofNat (by rintro rfl; exact hn rfl)
  | negSucc k => exact atLeast_unpack_pack (by decide) (atLeast_ofNat k.succ_ne_zero).neg

end Rounding

/-- **The double of an integer is zero only for zero.** -/
theorem Integer.toFloat_beq_zero_iff (n : Int64) : (toFloat n == 0.0) = true ↔ n = 0 := by
  constructor
  · intro h
    by_cases hn : n.toInt = 0
    · exact Int64.toInt_inj.1 hn
    · have hne : (toFloat n == 0.0) = false := (Rounding.atLeast_ofInt hn).ne_zero
      rw [hne] at h
      cases h
  · rintro rfl
    decide

end Primer
