import Mathlib.Data.Rat.Floor
import Mathlib.Tactic.Linarith
import Primer.Operator.Apply
import Primer.Proofs.Integer

/-!
# Integer arithmetic is exact or reported

Every operator on two integers gives the exact result or a fault (`BinaryOp.integers_exact`). Sums,
differences and products are computed on unbounded integers, so only their range is at stake. The
floor of a quotient is found in 64-bit steps: the integer part of the quotient, the remainder, and
one less than the integer part if the remainder asks for it. That these steps themselves can
neither divide by zero nor leave the range is said by a second computation, which has no outcome
where a step goes wrong (`BinaryOp.stepwise?`) and always has the same outcome as the first.
-/

set_option autoImplicit false

namespace Primer

namespace Integer

variable {a b : Int64}

theorem toInt_eq_zero_iff : b.toInt = 0 ↔ b = 0 := by
  rw [← Int64.toInt_inj]
  rfl

/-! ## Quotients -/

/-- The integer part of a quotient is smaller than the dividend, unless the divisor is a unit. -/
theorem inRange_tdiv_iff (hb : b ≠ 0) :
    InRange (a.toInt.tdiv b.toInt) ↔ ¬(a = Int64.minValue ∧ b = -1) := by
  have hzero : b.toInt ≠ 0 := mt toInt_eq_zero_iff.1 hb
  have hcorner : a = Int64.minValue ∧ b = -1 ↔ a.toInt = -limit ∧ b.toInt = -1 := by
    rw [← Int64.toInt_inj, ← Int64.toInt_inj]
    rfl
  have ha := inRange_toInt a
  have habs : (a.toInt.tdiv b.toInt).natAbs = a.toInt.natAbs / b.toInt.natAbs :=
    Int.natAbs_tdiv ..
  rw [hcorner]
  simp only [InRange, limit] at *
  by_cases hunit : b.toInt.natAbs = 1
  · -- a divisor of one or minus one
    rcases Int.natAbs_eq_iff.1 hunit with hone | hone
    · rw [hone, Nat.cast_one, Int.tdiv_one]
      omega
    · rw [hone, Nat.cast_one, Int.tdiv_neg, Int.tdiv_one]
      omega
  · have hhalf : a.toInt.natAbs / b.toInt.natAbs ≤ a.toInt.natAbs / 2 :=
      Nat.div_le_div_left (by omega) (by omega)
    omega

/-- A quotient is given if it fits, rounded towards zero. -/
theorem quotient?_eq_some_iff (hb : b ≠ 0) {q : Int64} :
    quotient? a b = some q ↔ q.toInt = a.toInt.tdiv b.toInt := by
  rw [quotient?, if_neg hb, fit?_eq_some_iff]

/-- Only one quotient does not fit. -/
theorem quotient?_eq_none_iff (hb : b ≠ 0) :
    quotient? a b = none ↔ a = Int64.minValue ∧ b = -1 := by
  rw [quotient?, if_neg hb, fit?_eq_none_iff, inRange_tdiv_iff hb, not_not]

/-- A remainder that is not zero leaves room below the integer part of the quotient. -/
theorem inRange_pred (hb : b ≠ 0) {q : Int64} (hq : q.toInt = a.toInt.tdiv b.toInt)
    (hr : a % b ≠ 0) : InRange (q.toInt - 1) := by
  have hr' : a.toInt.tmod b.toInt ≠ 0 := by
    rw [← Int64.toInt_mod]
    exact mt toInt_eq_zero_iff.1 hr
  have hzero : b.toInt ≠ 0 := mt toInt_eq_zero_iff.1 hb
  have hunit : b.toInt.natAbs ≠ 1 := by
    intro hunit
    refine hr' (Int.tmod_eq_zero_of_dvd ?_)
    rw [← Int.natAbs_dvd_natAbs, hunit]
    exact one_dvd _
  have habs : q.toInt.natAbs = a.toInt.natAbs / b.toInt.natAbs := by
    rw [hq]
    exact Int.natAbs_tdiv ..
  have hhalf : a.toInt.natAbs / b.toInt.natAbs ≤ a.toInt.natAbs / 2 :=
    Nat.div_le_div_left (by omega) (by omega)
  have ha := inRange_toInt a
  simp only [InRange, limit] at *
  omega

/-! ## Floors -/

/-- The floor of a fraction is the quotient that rounds down. -/
theorem floor_div (x y : Int) : ⌊(x : ℚ) / y⌋ = x.fdiv y := by
  have hnonneg : ∀ (x : Int) (d : Nat), ⌊(x : ℚ) / d⌋ = x.fdiv d := by
    intro x d
    rw [Rat.floor_intCast_div_natCast, Int.fdiv_eq_ediv_of_nonneg x (Int.natCast_nonneg d)]
  obtain ⟨d, rfl | rfl⟩ := Int.eq_nat_or_neg y
  · exact_mod_cast hnonneg x d
  · -- the signs of both are turned around
    have hturn : (x : ℚ) / (-(d : Int) : Int) = ((-x : Int) : ℚ) / d := by
      push_cast
      rw [div_neg, neg_div]
    rw [hturn, hnonneg, ← Int.neg_fdiv_neg, neg_neg]

/-- Rounding down differs from cutting off where a remainder has the other sign than the
divisor. -/
theorem fdiv_eq_adjusted (x : Int) {y : Int} (hy : y ≠ 0) :
    x.fdiv y =
      if x.tmod y ≠ 0 ∧ decide (x.tmod y < 0) ≠ decide (y < 0) then x.tdiv y - 1
      else x.tdiv y := by
  rw [Int.fdiv_eq_tdiv]
  by_cases hdvd : y ∣ x
  · have hzero : x.tmod y = 0 := Int.dvd_iff_tmod_eq_zero.1 hdvd
    rw [if_pos hdvd, if_neg fun h => h.1 hzero, Int.sub_zero]
  · -- the remainder has the sign of the dividend
    have hsign : (x.tmod y).sign = x.sign := by rw [Int.sign_tmod, if_neg hdvd]
    have hneg : x.tmod y < 0 ↔ x < 0 := by
      rw [← Int.sign_eq_neg_one_iff_neg, hsign, Int.sign_eq_neg_one_iff_neg]
    have hsome : x.tmod y ≠ 0 := mt Int.dvd_iff_tmod_eq_zero.2 hdvd
    have hdiffer : x.tmod y ≠ 0 ∧ decide (x.tmod y < 0) ≠ decide (y < 0) ↔ ¬(x < 0 ↔ y < 0) := by
      rw [ne_eq (decide _), decide_eq_decide, hneg, and_iff_right hsome]
    simp only [if_neg hdvd, hdiffer]
    rcases lt_or_gt_of_ne hy with hy | hy
    · rw [Int.sign_eq_neg_one_of_neg hy]
      grind
    · rw [Int.sign_eq_one_of_pos hy]
      grind

theorem toInt_pred {q : Int64} (h : InRange (q.toInt - 1)) : (q - 1).toInt = q.toInt - 1 := by
  rw [Int64.toInt_sub]
  exact Int.bmod_eq_of_le h.1 h.2

/-- The steps lead to the floor of the quotient, if it is in range. -/
theorem floor?_eq (hb : b ≠ 0) : floor? a b = fit? ⌊(a.toInt : ℚ) / b.toInt⌋ := by
  have hzero : b.toInt ≠ 0 := mt toInt_eq_zero_iff.1 hb
  rw [floor_div, fdiv_eq_adjusted a.toInt hzero, floor?]
  cases hquotient : quotient? a b with
  | none =>
    obtain ⟨rfl, rfl⟩ := (quotient?_eq_none_iff hb).1 hquotient
    decide
  | some q =>
    have hq := (quotient?_eq_some_iff hb).1 hquotient
    have hcond : a % b ≠ 0 ∧ decide (a % b < 0) ≠ decide (b < 0) ↔
        a.toInt.tmod b.toInt ≠ 0 ∧ decide (a.toInt.tmod b.toInt < 0) ≠ decide (b.toInt < 0) := by
      rw [← Int64.toInt_mod, ne_eq (a % b), ← toInt_eq_zero_iff]
      simp only [Int64.lt_iff_toInt_lt, Int64.toInt_zero, ne_eq]
    rw [eq_comm, Option.map_some, fit?_eq_some_iff]
    simp only [hcond]
    split
    · next h => rw [toInt_pred (inRange_pred hb hq (hcond.2 h).1), hq]
    · exact hq

/-- The floor of a quotient leaves the range only with the integer part. -/
theorem inRange_floor_iff (hb : b ≠ 0) :
    InRange ⌊(a.toInt : ℚ) / b.toInt⌋ ↔ ¬(a = Int64.minValue ∧ b = -1) := by
  rw [← quotient?_eq_none_iff hb, ← not_iff_not, not_not, ← fit?_eq_none_iff, ← floor?_eq hb, floor?,
    Option.map_eq_none_iff]

end Integer

namespace BinaryOp

/-! ## Results -/

/-- The operator gives this number on the two integers, or an overflow if it is out of range. -/
def Exact (op : BinaryOp) (a b : Int64) (pos : Position) (n : Int) : Prop :=
  (Integer.InRange n →
      ∃ k : Int64, k.toInt = n ∧ op.apply (.integer a) (.integer b) pos = .ok (.integer k)) ∧
    (¬Integer.InRange n →
      op.apply (.integer a) (.integer b) pos = .error ⟨.overflow op a b, pos⟩)

variable {a b : Int64} {pos : Position}

/-- An operator that fits its result is exact. -/
theorem exact_of_fitted {op : BinaryOp} {n : Int}
    (h : op.apply (.integer a) (.integer b) pos = op.fitted a b pos (Integer.fit? n)) :
    op.Exact a b pos n := by
  constructor
  · intro hn
    refine ⟨Int64.ofInt n, Integer.toInt_ofInt hn, ?_⟩
    rw [h, Integer.fit?_eq_some_iff.2 (Integer.toInt_ofInt hn), fitted]
  · intro hn
    rw [h, Integer.fit?_eq_none_iff.2 hn, fitted]

/-- Division stays among the integers if it leaves no rest. -/
theorem apply_divide (hb : b ≠ 0) :
    divide.apply (.integer a) (.integer b) pos =
      if b.toInt ∣ a.toInt then divide.fitted a b pos (Integer.quotient? a b)
      else .ok (.float (Integer.toFloat a / Integer.toFloat b)) := by
  have hdvd : a % b = 0 ↔ b.toInt ∣ a.toInt := by
    rw [← Integer.toInt_eq_zero_iff, Int64.toInt_mod, Int.dvd_iff_tmod_eq_zero]
  simp only [apply, arithmetic, onIntegers, hb, false_and, if_false, hdvd]

/-- A quotient is an integer exactly if it is the exact one. -/
theorem apply_divide_eq_integer_iff (hb : b ≠ 0) {q : Int64} :
    divide.apply (.integer a) (.integer b) pos = .ok (.integer q) ↔
      q.toInt * b.toInt = a.toInt := by
  have hzero : b.toInt ≠ 0 := mt Integer.toInt_eq_zero_iff.1 hb
  rw [apply_divide hb]
  constructor
  · intro h
    split at h
    · next hdvd =>
      cases hquotient : Integer.quotient? a b with
      | none =>
        rw [hquotient] at h
        cases h
      | some k =>
        rw [hquotient] at h
        obtain rfl : k = q := by simpa [fitted] using h
        rw [(Integer.quotient?_eq_some_iff hb).1 hquotient, Int.tdiv_mul_cancel hdvd]
    · cases h
  · intro h
    have hquotient : Integer.quotient? a b = some q := by
      rw [Integer.quotient?_eq_some_iff hb, ← h, Int.mul_tdiv_cancel _ hzero]
    rw [if_pos ⟨q.toInt, by rw [← h, mul_comm]⟩, hquotient, fitted]

end BinaryOp

/-! ## Steps that cannot go wrong -/

/-- The remainder of truncated division, which is absent for a divisor of zero and where the exact
remainder is out of range. -/
def Integer.remainder? (a b : Int64) : Option Int64 :=
  if b = 0 then none else fit? (a.toInt.tmod b.toInt)

/-- One less, which is absent where it is out of range. -/
def Integer.pred? (q : Int64) : Option Int64 := fit? (q.toInt - 1)

namespace BinaryOp

/-- Arithmetic on two integers that takes the same steps and has no outcome at all if a step on the
way, a remainder or the adjustment of a quotient, divides by zero or leaves the range. -/
def stepwise? (op : BinaryOp) (a b : Int64) (pos : Position) : Option (Except Fault Value) :=
  if b = 0 ∧ op.isDivision then some (.error ⟨op.zeroDivisor, pos⟩)
  else
    match op with
    | .divide =>
      (Integer.remainder? a b).map fun r =>
        if r = 0 then divide.fitted a b pos (Integer.quotient? a b)
        else .ok (.float (Integer.toFloat a / Integer.toFloat b))
    | .modulo => (Integer.remainder? a b).map fun r => modulo.fitted a b pos (some r)
    | .quotient =>
      match Integer.quotient? a b with
      | none => some (quotient.fitted a b pos none)
      | some q =>
        (Integer.remainder? a b).bind fun r =>
          if r ≠ 0 ∧ decide (r < 0) ≠ decide (b < 0) then
            (Integer.pred? q).map fun q' => quotient.fitted a b pos (some q')
          else some (quotient.fitted a b pos (some q))
    | op => some (op.onIntegers a b pos)

/-- Remainders always fit. -/
theorem remainder?_eq {a b : Int64} (hb : b ≠ 0) : Integer.remainder? a b = some (a % b) := by
  rw [Integer.remainder?, if_neg hb, Integer.fit?_eq_some_iff, Int64.toInt_mod]

/-- No step goes wrong: past the guard the divisor is not zero, and a quotient is only adjusted
where there is room below it. -/
theorem stepwise?_eq (op : BinaryOp) (a b : Int64) (pos : Position) :
    op.stepwise? a b pos = some (op.onIntegers a b pos) := by
  by_cases hguard : b = 0 ∧ op.isDivision
  · unfold stepwise? onIntegers
    rw [if_pos hguard, if_pos hguard]
  · unfold stepwise?
    rw [if_neg hguard]
    cases op with
    | divide =>
      have hb : b ≠ 0 := fun hb => hguard ⟨hb, rfl⟩
      simp only [onIntegers, if_neg hguard, remainder?_eq hb, Option.map_some]
    | modulo =>
      have hb : b ≠ 0 := fun hb => hguard ⟨hb, rfl⟩
      simp only [onIntegers, if_neg hguard, remainder?_eq hb, Option.map_some]
    | quotient =>
      have hb : b ≠ 0 := fun hb => hguard ⟨hb, rfl⟩
      simp only [onIntegers, if_neg hguard, Integer.floor?]
      cases hquotient : Integer.quotient? a b with
      | none => rfl
      | some q =>
        have hq := (Integer.quotient?_eq_some_iff hb).1 hquotient
        simp only [remainder?_eq hb, Option.bind_some, Option.map_some]
        split
        · next h =>
          -- the quotient is rounded down, which cannot overflow where it was inexact
          have hpred := Integer.inRange_pred hb hq h.1
          rw [Integer.pred?, Integer.fit?_eq_some_iff.2 (Integer.toInt_pred hpred), Option.map_some]
        · rfl
    | _ => rfl

/-! ## The operators -/

/-- **Integer arithmetic is exact or reported.** Sums, differences and products are exact or an
overflow. Nothing is divided by zero. By any other divisor, `DIV` gives the floor of the quotient,
which only the least integer by minus one takes out of range; `MOD` always gives the remainder that
is smaller than the divisor and has the sign of the dividend; and `/` gives an integer exactly if
the quotient is one, an overflow for the least integer by minus one, and a double if the division
leaves a remainder. No step on the way divides by zero or leaves the range. -/
theorem integers_exact (a b : Int64) (pos : Position) :
    (add.Exact a b pos (a.toInt + b.toInt) ∧ subtract.Exact a b pos (a.toInt - b.toInt) ∧
      multiply.Exact a b pos (a.toInt * b.toInt)) ∧
    (b = 0 → ∀ op ∈ [divide, modulo, quotient],
      op.apply (.integer a) (.integer b) pos = .error ⟨op.zeroDivisor, pos⟩) ∧
    (b ≠ 0 →
      (quotient.Exact a b pos ⌊(a.toInt : ℚ) / b.toInt⌋ ∧
        (Integer.InRange ⌊(a.toInt : ℚ) / b.toInt⌋ ↔ ¬(a = Int64.minValue ∧ b = -1))) ∧
      (∃ r : Int64, modulo.apply (.integer a) (.integer b) pos = .ok (.integer r) ∧
        |r.toInt| < |b.toInt| ∧ (r = 0 ∨ r.toInt.sign = a.toInt.sign) ∧
        b.toInt ∣ a.toInt - r.toInt) ∧
      (∀ q : Int64, divide.apply (.integer a) (.integer b) pos = .ok (.integer q) ↔
        q.toInt * b.toInt = a.toInt) ∧
      (a = Int64.minValue ∧ b = -1 →
        divide.apply (.integer a) (.integer b) pos = .error ⟨.overflow divide a b, pos⟩) ∧
      (¬b.toInt ∣ a.toInt →
        divide.apply (.integer a) (.integer b) pos =
          .ok (.float (Integer.toFloat a / Integer.toFloat b)))) ∧
    (∀ op : BinaryOp, op.stepwise? a b pos = some (op.onIntegers a b pos)) ∧
    ∀ op : BinaryOp, (Cause.overflow op a b).family = .evaluation ∧
      op.zeroDivisor.family = .evaluation := by
  refine ⟨⟨exact_of_fitted ?_, exact_of_fitted ?_, exact_of_fitted ?_⟩, ?_, ?_,
    fun op => stepwise?_eq op a b pos, fun op => ⟨rfl, by cases op <;> rfl⟩⟩
  · -- the first three fit the exact result as it is
    simp [apply, arithmetic, onIntegers, isDivision]
  · simp [apply, arithmetic, onIntegers, isDivision]
  · simp [apply, arithmetic, onIntegers, isDivision]
  · rintro rfl op hop
    simp only [List.mem_cons, List.not_mem_nil, or_false] at hop
    rcases hop with rfl | rfl | rfl <;> rfl
  · intro hb
    refine ⟨⟨exact_of_fitted ?_, Integer.inRange_floor_iff hb⟩, ?_,
      fun q => apply_divide_eq_integer_iff hb, ?_, ?_⟩
    · rw [← Integer.floor?_eq hb]
      simp only [apply, arithmetic, onIntegers, hb, false_and, if_false]
    · refine ⟨a % b, ?_, ?_, ?_, ?_⟩
      · simp only [apply, arithmetic, onIntegers, hb, false_and, if_false, fitted]
      · -- the remainder is that of division rounded towards zero
        rw [Int64.toInt_mod, ← Int.natCast_natAbs, ← Int.natCast_natAbs, Int.natAbs_tmod]
        exact_mod_cast Nat.mod_lt _ (Int.natAbs_pos.2 (mt Integer.toInt_eq_zero_iff.1 hb))
      · rw [← Integer.toInt_eq_zero_iff, Int64.toInt_mod, ← Int.dvd_iff_tmod_eq_zero, Int.sign_tmod]
        by_cases hdvd : b.toInt ∣ a.toInt
        · exact Or.inl hdvd
        · exact Or.inr (if_neg hdvd)
      · rw [Int64.toInt_mod]
        exact ⟨a.toInt.tdiv b.toInt, by linarith [Int.mul_tdiv_add_tmod a.toInt b.toInt]⟩
    · rintro ⟨rfl, rfl⟩
      rfl
    · intro hdvd
      rw [apply_divide hb, if_neg hdvd]

/-- The least integer by minus one: its quotient overflows, its remainder is zero. -/
theorem integers_exact_least :
    (-1 : Int64) ≠ 0 ∧
      quotient.apply (.integer Int64.minValue) (.integer (-1)) ⟨0, 4⟩ =
        .error ⟨.overflow quotient Int64.minValue (-1), ⟨0, 4⟩⟩ ∧
      ∃ r : Int64, modulo.apply (.integer Int64.minValue) (.integer (-1)) ⟨0, 4⟩ =
        .ok (.integer r) ∧ |r.toInt| < |(-1 : Int64).toInt| := by
  have hb : (-1 : Int64) ≠ 0 := by decide
  obtain ⟨-, -, hdivision, -⟩ := integers_exact Int64.minValue (-1) ⟨0, 4⟩
  obtain ⟨⟨⟨-, hoverflow⟩, hrange⟩, ⟨r, hr, hsmall, -⟩, -⟩ := hdivision hb
  exact ⟨hb, hoverflow fun h => hrange.1 h ⟨rfl, rfl⟩, r, hr, hsmall⟩

end BinaryOp

end Primer
