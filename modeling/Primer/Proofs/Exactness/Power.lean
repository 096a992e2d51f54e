import Mathlib.Algebra.Order.Ring.Int
import Mathlib.Tactic.Linarith
import Mathlib.Tactic.Ring
import Primer.Proofs.Exactness

/-!
# Integer powers are exact or reported

A power of two integers with an exponent that is not negative is the exact power or an overflow
(`BinaryOp.powers_exact`). The same powers are found in 64-bit steps on two ways: by repeated
squaring for exponents below two to the power 32, and from the three bases whose powers stay in
range for larger ones (`Integer.twoWayPower?`). Squaring stops as soon as one product is out of
range, and that no power in range is lost by this needs two facts: a square is only taken where it
divides the power, and no square is two to the power 63 itself, so what it divides is out of range
on both sides.
-/

set_option autoImplicit false

namespace Primer

namespace Integer

/-! ## Products that are out of range -/

/-- A positive factor does not bring a number back into range. -/
theorem not_inRange_mul {n k : Int} (hn : ¬InRange n) (hk : 0 < k) : ¬InRange (n * k) := by
  rintro ⟨hlow, hhigh⟩
  refine hn ⟨?_, ?_⟩
  · by_contra hless
    have hmul : n * k ≤ n * 1 := mul_le_mul_of_nonpos_left hk (by simp only [limit] at *; omega)
    omega
  · by_contra hless
    have hmul : n * 1 ≤ n * k := mul_le_mul_of_nonneg_left hk (by simp only [limit] at *; omega)
    omega

/-- A number that is too large in size is out of range. -/
theorem not_inRange_of_natAbs {n : Int} (h : limit.natAbs < n.natAbs) : ¬InRange n := by
  rintro ⟨hlow, hhigh⟩
  simp only [limit] at *
  omega

/-- No square is two to the power 63, so one that is out of range exceeds it. -/
theorem limit_lt_square {n : Int} (h : ¬InRange (n * n)) : limit.natAbs < (n * n).natAbs := by
  have hnonneg : 0 ≤ n * n := mul_self_nonneg n
  have hlimit : limit ≤ n * n := by
    by_contra hless
    exact h ⟨by simp only [limit] at *; omega, by omega⟩
  rw [Int.natAbs_mul] at *
  rcases Nat.lt_or_ge n.natAbs 3037000500 with hsmall | hlarge
  · -- the square of the greatest root below is still in range
    have hmul : n.natAbs * n.natAbs ≤ 3037000499 * 3037000499 :=
      Nat.mul_le_mul (by omega) (by omega)
    have habs : ((n.natAbs * n.natAbs : Nat) : Int) = n * n := by
      push_cast
      exact abs_mul_abs_self n
    simp only [limit] at *
    omega
  · have hmul : 3037000500 * 3037000500 ≤ n.natAbs * n.natAbs := Nat.mul_le_mul hlarge hlarge
    simp only [limit]
    omega

/-! ## Repeated squaring -/

/-- The product of two integers, which is absent where it is out of range. -/
def product? (a b : Int64) : Option Int64 := fit? (a.toInt * b.toInt)

/-- The product with one more factor if the exponent is odd. -/
def taken? (product base : Int64) (e : Nat) : Option Int64 :=
  if e % 2 = 1 then product? product base else some product

/-- The number `product * base ^ e` by repeated squaring, which is absent where a product on the
way is out of range. The base is not squared once more after the last factor is taken. -/
def squaring? (product base : Int64) (e : Nat) : Option Int64 :=
  if h : e = 0 then some product
  else do
    let taken ← taken? product base e
    if e = 1 then some taken
    else
      let square ← product? base base
      squaring? taken square (e / 2)
termination_by e
decreasing_by omega

/-- The factor that is taken in a step. -/
def oddFactor (n : Int) (e : Nat) : Int := if e % 2 = 1 then n else 1

/-- Half of the exponent is left for the square of the base. -/
theorem pow_halved (n : Int) (e : Nat) : n ^ e = oddFactor n e * (n * n) ^ (e / 2) := by
  have hparts : e = e % 2 + 2 * (e / 2) := (Nat.mod_add_div e 2).symm
  conv_lhs => rw [hparts, pow_add, pow_mul, pow_two]
  rcases Nat.mod_two_eq_zero_or_one e with h | h <;> simp [oddFactor, h]

theorem fit?_toInt (a : Int64) : fit? a.toInt = some a :=
  fit?_eq_some_iff.2 rfl

/-- A factor is taken into the product if the base comes up at this place of the exponent. -/
theorem taken?_eq (product base : Int64) (e : Nat) :
    taken? product base e = fit? (product.toInt * oddFactor base.toInt e) := by
  unfold taken? oddFactor
  split
  · rfl
  · rw [mul_one, fit?_toInt]

/-- A factor that leads out of range divides the power. -/
theorem not_inRange_taken {m n : Int} {e : Nat} (hm : InRange m)
    (h : ¬InRange (m * oddFactor n e)) : ¬InRange (m * n ^ e) := by
  have hn : n ≠ 0 := by
    rintro rfl
    unfold oddFactor at h
    split at h
    · exact h (by rw [mul_zero]; decide)
    · exact h (by rwa [mul_one])
  have hsquare : 0 < (n * n) ^ (e / 2) := pow_pos (mul_self_pos.2 hn) _
  rw [pow_halved, ← mul_assoc]
  exact not_inRange_mul h hsquare

/-- A square that is out of range divides a power from the second on. -/
theorem not_inRange_square {m n : Int} {e : Nat} (he : 2 ≤ e) (hm : m ≠ 0)
    (h : ¬InRange (n * n)) : ¬InRange (m * (n * n) ^ (e / 2)) := by
  have hlarge := limit_lt_square h
  apply not_inRange_of_natAbs
  calc limit.natAbs
      < (n * n).natAbs := hlarge
    _ ≤ (n * n).natAbs ^ (e / 2) := Nat.le_self_pow (by omega) _
    _ ≤ m.natAbs * (n * n).natAbs ^ (e / 2) :=
        Nat.le_mul_of_pos_left _ (Int.natAbs_pos.2 hm)
    _ = (m * (n * n) ^ (e / 2)).natAbs := by rw [Int.natAbs_mul m, Int.natAbs_pow]

/-- Only together with the base can the product become zero. -/
theorem taken_ne_zero {product base q : Int64} {e : Nat} (h : product ≠ 0 ∨ base = 0)
    (hq : q.toInt = product.toInt * oddFactor base.toInt e) (hbase : base ≠ 0) : q ≠ 0 := by
  have hproduct : product.toInt ≠ 0 := mt toInt_eq_zero_iff.1 (h.resolve_right hbase)
  have hbase' : base.toInt ≠ 0 := mt toInt_eq_zero_iff.1 hbase
  have hfactor : oddFactor base.toInt e ≠ 0 := by
    unfold oddFactor
    split
    · exact hbase'
    · exact one_ne_zero
  rw [ne_eq, ← toInt_eq_zero_iff, hq]
  exact mul_ne_zero hproduct hfactor

/-- Repeated squaring finds the exact product if it is in range, and nothing otherwise. Zero times
a power of another base is left out: it is in range where the squares are not. -/
theorem squaring?_eq (product base : Int64) (e : Nat) (h : product ≠ 0 ∨ base = 0) :
    squaring? product base e = fit? (product.toInt * base.toInt ^ e) := by
  -- by induction on the exponent, which is halved
  induction e using Nat.strong_induction_on generalizing product base with
  | h e ih =>
    unfold squaring?
    by_cases he : e = 0
    · rw [dif_pos he, he, pow_zero, mul_one, fit?_toInt]
    · rw [dif_neg he, taken?_eq]
      cases htaken : fit? (product.toInt * oddFactor base.toInt e) with
      | none =>
        -- if the odd factor does not fit, neither does the power
        have hout := not_inRange_taken (inRange_toInt product) (fit?_eq_none_iff.1 htaken)
        exact (fit?_eq_none_iff.2 hout).symm
      | some q =>
        rw [fit?_eq_some_iff] at htaken
        rw [pow_halved, ← mul_assoc, ← htaken, Option.bind_eq_bind, Option.bind_some]
        by_cases hone : e = 1
        · have hhalf : e / 2 = 0 := by omega
          rw [if_pos hone, hhalf, pow_zero, mul_one, fit?_toInt]
        · rw [if_neg hone, product?]
          cases hsquare : fit? (base.toInt * base.toInt) with
          | none =>
            -- if the square does not fit, neither does the power: it has more factors
            rw [fit?_eq_none_iff] at hsquare
            have hbase : base ≠ 0 := by
              rintro rfl
              exact hsquare (by decide)
            have hq : q.toInt ≠ 0 := mt toInt_eq_zero_iff.1 (taken_ne_zero h htaken hbase)
            exact (fit?_eq_none_iff.2 (not_inRange_square (by omega) hq hsquare)).symm
          | some s =>
            rw [fit?_eq_some_iff] at hsquare
            have hs : q ≠ 0 ∨ s = 0 := by
              by_cases hbase : base = 0
              · right
                rw [← toInt_eq_zero_iff, hsquare, hbase]
                rfl
              · exact Or.inl (taken_ne_zero h htaken hbase)
            rw [← hsquare]
            exact ih (e / 2) (by omega) q s hs

/-! ## The two ways -/

/-- The powers of the bases whose powers all stay in range. -/
def stationary? (b : Int64) (e : Nat) : Option Int64 :=
  if b = 0 ∨ b = 1 then some b
  else if b = -1 then some (if e % 2 = 0 then 1 else -1)
  else none

/-- The power by repeated squaring for exponents below two to the power 32; beyond, by what is
known of the base. -/
def twoWayPower? (b : Int64) (e : Nat) : Option Int64 :=
  if e < pow2 32 then squaring? 1 b e else stationary? b e

/-- From exponent 64 on, only the powers of zero and of the units are in range. -/
theorem stationary?_eq {b : Int64} {e : Nat} (he : 64 ≤ e) :
    stationary? b e = fit? (b.toInt ^ e) := by
  unfold stationary?
  split
  · next h =>
    rw [eq_comm, fit?_eq_some_iff]
    rcases h with rfl | rfl
    · exact (zero_pow (by omega)).symm
    · exact (one_pow e).symm
  · next hfixed =>
    split
    · next h =>
      rw [eq_comm, fit?_eq_some_iff, h]
      rcases Nat.even_or_odd e with heven | hodd
      · rw [if_pos (Nat.even_iff.1 heven)]
        exact (heven.neg_one_pow).symm
      · rw [if_neg (by rw [Nat.odd_iff.1 hodd]; decide)]
        exact (hodd.neg_one_pow).symm
    · next hunit =>
      rw [eq_comm, fit?_eq_none_iff]
      apply not_inRange_of_natAbs
      -- any other base is at least two in absolute value
      have hbase : 2 ≤ b.toInt.natAbs := by
        simp only [← Int64.toInt_inj] at hfixed hunit
        have hzero : (0 : Int64).toInt = 0 := rfl
        have hone : (1 : Int64).toInt = 1 := rfl
        have hneg : (-1 : Int64).toInt = -1 := rfl
        omega
      calc limit.natAbs
          < 2 ^ 64 := by decide
        _ ≤ 2 ^ e := Nat.pow_le_pow_right (by decide) he
        _ ≤ b.toInt.natAbs ^ e := Nat.pow_le_pow_left hbase e
        _ = (b.toInt ^ e).natAbs := (Int.natAbs_pow ..).symm

/-- Squaring gives the exact power, or finds that it does not fit. -/
theorem power?_eq (b : Int64) (e : Nat) : power? b e = fit? (b.toInt ^ e) := by
  by_cases he : e < 64
  · rw [power?, if_pos he]
    rfl
  · rw [← stationary?_eq (Nat.le_of_not_lt he), power?, if_neg he, stationary?]

/-- Both ways to take a power give the exact one, or find that it does not fit. -/
theorem twoWayPower?_eq (b : Int64) (e : Nat) : twoWayPower? b e = fit? (b.toInt ^ e) := by
  unfold twoWayPower?
  split
  · rw [squaring?_eq 1 b e (Or.inl (by decide)), Int64.toInt_one, one_mul]
  · next h =>
    have hlarge : 64 ≤ e := le_trans (by decide) (Nat.le_of_not_lt h)
    exact stationary?_eq hlarge

end Integer

namespace BinaryOp

/-- **Integer powers are exact or reported.** For an exponent that is not negative the operator
gives the exact power if it is in range and an overflow otherwise; the empty product is one for
every base. The two ways lead to the same: neither squaring nor what is known of the base refuses
a power that is in range. -/
theorem powers_exact (b e : Int64) (pos : Position) (he : 0 ≤ e.toInt) :
    power.Exact b e pos (b.toInt ^ e.toInt.toNat) ∧
      (e = 0 → power.apply (.integer b) (.integer e) pos = .ok (.integer 1)) ∧
      power.apply (.integer b) (.integer e) pos =
        power.fitted b e pos (Integer.twoWayPower? b e.toInt.toNat) ∧
      (pow2 32 ≤ e.toInt.toNat →
        Integer.twoWayPower? b e.toInt.toNat = Integer.stationary? b e.toInt.toNat ∧
          Integer.stationary? b e.toInt.toNat = Integer.fit? (b.toInt ^ e.toInt.toNat)) ∧
      (Cause.overflow power b e).family = .evaluation := by
  -- an exponent that is not negative is taken to the exact power
  have happly : power.apply (.integer b) (.integer e) pos =
      power.fitted b e pos (Integer.fit? (b.toInt ^ e.toInt.toNat)) := by
    rw [← Integer.power?_eq]
    exact if_pos he
  refine ⟨exact_of_fitted happly, ?_, ?_, ?_, rfl⟩
  · rintro rfl
    have hexponent : (0 : Int64).toInt.toNat = 0 := rfl
    rw [happly, hexponent, pow_zero, ← Int64.toInt_one, Integer.fit?_toInt, fitted]
  · rw [happly, Integer.twoWayPower?_eq]
  · intro hlarge
    have htable : Integer.twoWayPower? b e.toInt.toNat = Integer.stationary? b e.toInt.toNat :=
      if_neg (Nat.not_lt.2 hlarge)
    exact ⟨htable, by rw [← htable, Integer.twoWayPower?_eq]⟩

/-- The least integer is a power of minus two, although one more square would be out of range. -/
theorem powers_exact_least :
    0 ≤ (63 : Int64).toInt ∧
      power.apply (.integer (-2)) (.integer 63) ⟨0, 2⟩ = .ok (.integer Int64.minValue) := by
  have he : 0 ≤ (63 : Int64).toInt := by decide
  obtain ⟨⟨hfits, -⟩, -⟩ := powers_exact (-2) 63 ⟨0, 2⟩ he
  obtain ⟨k, hk, happly⟩ := hfits (by decide)
  have hleast : k = Int64.minValue := by
    rw [← Int64.toInt_inj, hk]
    rfl
  rw [hleast] at happly
  exact ⟨he, happly⟩

end BinaryOp

end Primer
