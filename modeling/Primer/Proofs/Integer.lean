import Primer.Numeric.Integer

/-!
# Integers in range

What `Integer.fit?` and `Integer.ofDigits?` give, said through the numbers that integers stand for:
the integer of a number if there is one, and nothing exactly for the numbers out of range.
-/

set_option autoImplicit false

namespace Primer

/-- Digits that are passed over once the value has reached the limit do not matter below it. -/
theorem Decimal.valueUpTo_spec (limit : Nat) (ds : List Char) :
    valueUpTo limit ds = Nat.ofDigitChars 10 ds 0 ∨
      limit ≤ valueUpTo limit ds ∧ limit ≤ Nat.ofDigitChars 10 ds 0 := by
  -- for any value of the digits before, of which the exact one may be ahead past the limit
  have hfold : ∀ n m : Nat, n = m ∨ limit ≤ n ∧ limit ≤ m →
      let value := ds.foldl (fun n c => if n < limit then Nat.ofDigitChars 10 [c] n else n) n
      value = Nat.ofDigitChars 10 ds m ∨ limit ≤ value ∧ limit ≤ Nat.ofDigitChars 10 ds m := by
    induction ds with
    | nil =>
      intro n m hnm
      simpa using hnm
    | cons c ds ih =>
      intro n m hnm
      have hstep : Nat.ofDigitChars 10 (c :: ds) m =
          Nat.ofDigitChars 10 ds (10 * m + (c.toNat - '0'.toNat)) := Nat.ofDigitChars_cons ..
      rw [List.foldl_cons, hstep]
      apply ih
      split
      · next hlt =>
        obtain rfl : n = m := by omega
        exact Or.inl (by rw [Nat.ofDigitChars_cons, Nat.ofDigitChars_nil])
      · omega
  exact hfold 0 0 (Or.inl rfl)

namespace Integer

/-- The numbers that 64-bit integers stand for. -/
def InRange (n : Int) : Prop := -limit ≤ n ∧ n < limit

instance : DecidablePred InRange := fun _ => inferInstanceAs (Decidable (_ ∧ _))

theorem inRange_toInt (a : Int64) : InRange a.toInt :=
  ⟨a.le_toInt, a.toInt_lt⟩

/-- A number in range survives being stored. -/
theorem toInt_ofInt {n : Int} (h : InRange n) : (Int64.ofInt n).toInt = n :=
  Int64.toInt_ofInt_of_le h.1 h.2

/-- A number fits as the 64-bit integer of this value. -/
theorem fit?_eq_some_iff {n : Int} {k : Int64} : fit? n = some k ↔ k.toInt = n := by
  unfold fit?
  split
  · next h => rw [Option.some.injEq, ← Int64.toInt_inj, toInt_ofInt h, eq_comm]
  · next h =>
    refine iff_of_false nofun ?_
    rintro rfl
    exact h (inRange_toInt k)

/-- A number does not fit exactly if it is out of range. -/
theorem fit?_eq_none_iff {n : Int} : fit? n = none ↔ ¬InRange n := by
  simp [fit?, InRange]

/-- Digits stand for the integer of their value, or its negative. -/
theorem ofDigits?_eq (negative : Bool) (ds : List Char) :
    ofDigits? negative ds =
      fit? (if negative then -(Nat.ofDigitChars 10 ds 0 : Int) else Nat.ofDigitChars 10 ds 0) := by
  unfold ofDigits?
  rcases Decimal.valueUpTo_spec (limit.toNat + 1) ds with h | ⟨hread, hvalue⟩
  · simp only [h, Int.ofNat_eq_natCast]
  · -- past the limit, neither of the two numbers is that of an integer
    have hnone : ∀ n : Nat, limit.toNat + 1 ≤ n →
        fit? (if negative then -(n : Int) else n) = none := by
      intro n hn
      rw [fit?_eq_none_iff, InRange]
      simp only [limit] at *
      split <;> omega
    rw [Int.ofNat_eq_natCast, hnone _ hread, hnone _ hvalue]

/-- Digits are read to the number that they write. -/
theorem ofDigits?_eq_some_iff {ds : List Char} {n : Int64} :
    ofDigits? false ds = some n ↔ n.toInt = Nat.ofDigitChars 10 ds 0 := by
  rw [ofDigits?_eq, fit?_eq_some_iff, if_neg Bool.false_ne_true]

/-- Digits are refused exactly if their number is too large. -/
theorem ofDigits?_eq_none_iff {ds : List Char} :
    ofDigits? false ds = none ↔ limit ≤ Nat.ofDigitChars 10 ds 0 := by
  rw [ofDigits?_eq, fit?_eq_none_iff, if_neg Bool.false_ne_true, InRange]
  simp only [limit]
  omega

end Integer

end Primer
