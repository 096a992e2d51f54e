import Primer.Proofs.Counting
import Primer.Proofs.Rules

/-!
# Counting loops run through an arithmetic progression

The counter of a loop takes the values from the first one on in equal steps, as many as stay
within the last one (`Eval.progression`). The loop steps on with a check against overflow and then
compares; that both together end the progression where it should is `nextCounter?_counterAt`, also
where the value after the end is no 64-bit integer. The passes then are those of the list in order
(`Eval.forLoop_progression`), whatever they do to the variable.
-/

set_option autoImplicit false

namespace Primer.Eval

/-! ## The values of the counter -/

/-- The number of steps from the first value to the final one: the integer part of the distance to
the last value, measured in steps. -/
def stepCount (first last step : Int64) : Nat :=
  ((last.toInt - first.toInt).tdiv step.toInt).toNat

/-- The value of the counter after the given number of steps. -/
def counterAt (first step : Int64) (i : Nat) : Int64 :=
  Int64.ofInt (first.toInt + i * step.toInt)

/-- The values of the counter. -/
def progression (first last step : Int64) : List Int64 :=
  (List.range (stepCount first last step + 1)).map (counterAt first step)

/-- The step leads from the first value towards the last one. -/
def Leads (first last step : Int64) : Prop :=
  0 < step.toInt ∧ first.toInt ≤ last.toInt ∨ step.toInt < 0 ∧ last.toInt ≤ first.toInt

section Values

variable {first last step : Int64}

/-- Exactly the values up to the final one are not past the last one. -/
theorem within_iff_le_stepCount (h : Leads first last step) (i : Nat) :
    Within last step (first.toInt + i * step.toInt) ↔ i ≤ stepCount first last step := by
  unfold Within stepCount
  rcases h with ⟨hstep, hle⟩ | ⟨hstep, hle⟩
  · have hdistance : 0 ≤ last.toInt - first.toInt := by omega
    rw [if_pos hstep, Int.tdiv_eq_ediv_of_nonneg hdistance]
    have hcount := Int.ediv_nonneg hdistance (Int.le_of_lt hstep)
    have hmul := Int.le_ediv_iff_mul_le (a := i) (b := last.toInt - first.toInt) hstep
    omega
  · -- both the distance and the step are turned around
    have hdistance : 0 ≤ -(last.toInt - first.toInt) := by omega
    have hback : 0 < -step.toInt := by omega
    rw [if_neg (by omega), ← Int.neg_tdiv_neg, Int.tdiv_eq_ediv_of_nonneg hdistance]
    have hcount := Int.ediv_nonneg hdistance (Int.le_of_lt hback)
    have hmul := Int.le_ediv_iff_mul_le (a := i) (b := -(last.toInt - first.toInt)) hback
    rw [Int.mul_neg] at hmul
    omega

/-- All values of the counter are between the first and the last one, so they are 64-bit
integers. -/
theorem toInt_counterAt (h : Leads first last step) {i : Nat}
    (hi : i ≤ stepCount first last step) :
    (counterAt first step i).toInt = first.toInt + i * step.toInt := by
  have hwithin := (within_iff_le_stepCount h i).2 hi
  have hfirst := Integer.inRange_toInt first
  have hlast := Integer.inRange_toInt last
  apply Integer.toInt_ofInt
  unfold Within at hwithin
  unfold Integer.InRange at *
  rcases h with ⟨hstep, -⟩ | ⟨hstep, -⟩
  · rw [if_pos hstep] at hwithin
    have hahead : 0 ≤ i * step.toInt := Int.mul_nonneg (by omega) (by omega)
    omega
  · rw [if_neg (by omega)] at hwithin
    have hbehind : i * step.toInt ≤ 0 := Int.mul_nonpos_of_nonneg_of_nonpos (by omega) (by omega)
    omega

/-- The counter steps on up to the final value, and there it stops. -/
theorem nextCounter?_counterAt (h : Leads first last step) {i : Nat}
    (hi : i ≤ stepCount first last step) :
    nextCounter? (counterAt first step i) last step =
      if i + 1 ≤ stepCount first last step then some (counterAt first step (i + 1)) else none := by
  have hsucc : first.toInt + ((i + 1 : Nat) : Int) * step.toInt =
      (counterAt first step i).toInt + step.toInt := by
    rw [toInt_counterAt h hi]
    rw [Int.natCast_succ, Int.add_mul, Int.one_mul, Int.add_assoc]
  split
  · next hnext =>
    rw [nextCounter?_eq_some_iff, toInt_counterAt h hnext]
    exact ⟨hsucc, (within_iff_le_stepCount h (i + 1)).2 hnext⟩
  · next hend =>
    -- another value would be the one after the final one
    rw [Option.eq_none_iff_forall_ne_some]
    intro k hk
    obtain ⟨hvalue, hwithin⟩ := nextCounter?_eq_some_iff.1 hk
    rw [hvalue, ← hsucc, within_iff_le_stepCount h] at hwithin
    exact hend hwithin

end Values

/-! ## The passes -/

variable {κ : Type}

/-- Passes for the given values in order, up to the first return or failure. -/
def inOrder (body : Int64 → Exec κ Flow) : List Int64 → Exec κ Flow
  | [] => pure (.next none)
  | i :: rest => do
    match ← body i with
    | .next _ => inOrder body rest
    | .returned v => pure (.returned v)

/-- From any value of the counter on, the loop makes the passes that are left, unless its fuel does
not suffice for them. -/
theorem countLoop_counterAt {first last step : Int64} (h : Leads first last step)
    (body : Int64 → Exec κ Flow) (left : Nat) :
    ∀ (i fuel : Nat) (m : Machine κ), i + left = stepCount first last step →
      (countLoop body last step fuel (counterAt first step i) m = .outOfFuel ∧ fuel ≤ left) ∨
        countLoop body last step fuel (counterAt first step i) m =
          inOrder body ((List.range' i (left + 1)).map (counterAt first step)) m := by
  induction left with
  | zero =>
    intro i fuel m hi
    cases fuel with
    | zero => exact Or.inl ⟨rfl, Nat.le_refl 0⟩
    | succ fuel =>
      right
      -- the counter has reached its last number, so this pass is the last
      have hstop := nextCounter?_counterAt h (i := i) (by omega)
      rw [if_neg (by omega)] at hstop
      rw [List.range'_succ, List.map_cons]
      simp only [countLoop, hstop, inOrder, bind]
      cases body (counterAt first step i) m with
      | failed fault m' => rfl
      | panicked least most console => rfl
      | outOfFuel => rfl
      | done flow m' => cases flow <;> rfl
  | succ left ih =>
    intro i fuel m hi
    cases fuel with
    | zero => exact Or.inl ⟨rfl, Nat.zero_le _⟩
    | succ fuel =>
      have hnext := nextCounter?_counterAt h (i := i) (by omega)
      rw [if_pos (by omega)] at hnext
      rw [List.range'_succ, List.map_cons]
      simp only [countLoop, hnext, inOrder, bind]
      cases body (counterAt first step i) m with
      | failed fault m' => exact Or.inr rfl
      | panicked least most console => exact Or.inr rfl
      | outOfFuel => exact Or.inr rfl
      | done flow m' =>
        cases flow with
        | returned v => exact Or.inr rfl
        | next v =>
          -- the next pass starts with less fuel and one number less
          rcases ih (i + 1) fuel m' (by omega) with ⟨hfuel, hle⟩ | hrun
          · exact Or.inl ⟨hfuel, by omega⟩
          · exact Or.inr hrun

/-- With enough fuel, a counting loop makes one pass for each number in order. -/
theorem countLoop_progression {first last step : Int64} (h : Leads first last step)
    (body : Int64 → Exec κ Flow) (fuel : Nat) (m : Machine κ) :
    (countLoop body last step fuel first m = .outOfFuel ∧ fuel ≤ stepCount first last step) ∨
      countLoop body last step fuel first m = inOrder body (progression first last step) m := by
  have hfirst : counterAt first step 0 = first := by simp [counterAt]
  have hloop := countLoop_counterAt h body _ 0 fuel m (Nat.zero_add _)
  rwa [hfirst, ← List.range_eq_range'] at hloop

/-! ## The loop -/

/-- A range is unreachable exactly if its step does not lead from first to last. -/
theorem leads_or_unreachable (first last : Int64) {step : Int64} (hstep : step.toInt ≠ 0) :
    unreachable first last step = false ∧ Leads first last step ∨
      unreachable first last step = true ∧ ¬Leads first last step := by
  unfold unreachable Leads
  split <;> rw [decide_eq_false_iff_not, decide_eq_true_iff] <;> omega

theorem bound_of_done {subject : String} {e : Expr} {x : Exec κ (Option Value)} {i : Int64}
    {m m' : Machine κ} (h : x m = .done (some (.integer i)) m') :
    bound subject e x m = .done i m' := by
  simp only [bound, required, bind, h]
  rfl

variable [Console κ]

theorem loopBounds_of_done {n : Nat} {first last step : Expr} {a b s : Int64}
    {m m₁ m₂ m₃ : Machine κ} (ha : expr n first m = .done (some (.integer a)) m₁)
    (hb : expr n last m₁ = .done (some (.integer b)) m₂)
    (hs : expr n step m₂ = .done (some (.integer s)) m₃) :
    loopBounds n first last step m = .done (a, b, s) m₃ := by
  simp only [loopBounds, bind, bound_of_done ha, bound_of_done hb, bound_of_done hs]
  rfl

/-- **Counting loops run through the arithmetic progression.** Let the bounds of a loop and its
step be integers `a`, `b` and `s`, found in this order. If the step is zero or does not lead from
`a` to `b`, the loop fails with the machine that the bounds left. Otherwise it is the passes for
`a`, `a + s`, and so on up to `a + k * s` one after the other, where `k` is the integer part of
`(b - a) / s`; each pass writes the variable and runs the body, and the first failure or return ends
the loop. Less fuel than one unit more than `k` may not suffice for this. -/
theorem forLoop_progression (n : Nat) (counter : String) (first last step : Expr)
    (body : List Stmt) (pos : Position) (m m₁ m₂ m₃ : Machine κ) (a b s : Int64)
    (ha : expr n first m = .done (some (.integer a)) m₁)
    (hb : expr n last m₁ = .done (some (.integer b)) m₂)
    (hs : expr n step m₂ = .done (some (.integer s)) m₃) :
    (s.toInt = 0 →
      stmt (n + 1) (.forLoop counter first last step body pos) m =
        .failed ⟨.zeroStep, step.position⟩ m₃) ∧
    (0 < s.toInt ∧ b.toInt < a.toInt ∨ s.toInt < 0 ∧ a.toInt < b.toInt →
      stmt (n + 1) (.forLoop counter first last step body pos) m =
        .failed ⟨.unreachableBound a b s, pos⟩ m₃) ∧
    (Cause.zeroStep.family = .evaluation ∧
      (Cause.unreachableBound a b s).family = .evaluation) ∧
    (0 < s.toInt ∧ a.toInt ≤ b.toInt ∨ s.toInt < 0 ∧ b.toInt ≤ a.toInt →
      (progression a b s).map Int64.toInt =
        (List.range (((b.toInt - a.toInt).tdiv s.toInt).toNat + 1)).map
          (fun i : Nat => a.toInt + i * s.toInt) ∧
      (stmt (n + 1) (.forLoop counter first last step body pos) m =
          inOrder
            (fun i => do
              Machine.assign (Target.plain counter) (.integer i) pos
              block (stmt n) body)
            (progression a b s) m₃ ∨
        stmt (n + 1) (.forLoop counter first last step body pos) m = .outOfFuel ∧
          n ≤ ((b.toInt - a.toInt).tdiv s.toInt).toNat)) := by
  -- the bounds are evaluated first, in this order
  have hloop := congrFun (stmt_forLoop n counter first last step body pos) m
  rw [Exec.bind_of_done (loopBounds_of_done ha hb hs)] at hloop
  dsimp only at hloop
  refine ⟨?_, ?_, ⟨rfl, rfl⟩, ?_⟩
  · intro hzero
    rw [hloop, if_pos hzero]
    rfl
  · intro haway
    have hstep : s.toInt ≠ 0 := by omega
    rcases leads_or_unreachable a b hstep with ⟨-, hleads⟩ | ⟨hunreachable, -⟩
    · unfold Leads at hleads
      omega
    · rw [hloop, if_neg hstep, if_pos hunreachable]
      rfl
  · intro hleads
    have hstep : s.toInt ≠ 0 := by omega
    rcases leads_or_unreachable a b hstep with ⟨hreachable, -⟩ | ⟨-, hnot⟩
    · constructor
      · -- the numbers that the counter takes, without overflow
        rw [progression, List.map_map]
        refine List.map_congr_left fun i hi => ?_
        exact toInt_counterAt hleads (Nat.lt_succ_iff.1 (List.mem_range.1 hi))
      · rw [hloop, if_neg hstep, hreachable, if_neg Bool.false_ne_true]
        exact (countLoop_progression hleads _ n m₃).symm
    · exact absurd hleads hnot

/-- Up to the largest integer: the loop passes `9223372036854775800` and
`9223372036854775805`, which its body prints before it writes the variable, and the next value
would be out of range. Afterwards the variable holds what the body wrote last. -/
theorem forLoop_progression_limit :
    let first := Expr.literal (.integer 9223372036854775800) ⟨0, 8⟩
    let last := Expr.literal (.integer 9223372036854775807) ⟨0, 31⟩
    let step := Expr.literal (.integer 5) ⟨0, 56⟩
    let body := [Stmt.expr (.call (.name "print" ⟨1, 0⟩) [.name "i" ⟨1, 6⟩] ⟨1, 5⟩),
      Stmt.assign (.plain "i") (.literal (.integer 0) ⟨2, 4⟩) ⟨2, 0⟩]
    let m : Machine Buffer := Machine.start (Buffer.withInput [] none) false .lowest
    (expr 5 first m = .done (some (.integer 9223372036854775800)) m ∧
      expr 5 last m = .done (some (.integer 9223372036854775807)) m ∧
      expr 5 step m = .done (some (.integer 5)) m) ∧
    stmt 6 (.forLoop "i" first last step body ⟨0, 0⟩) m =
      inOrder
        (fun i => do
          Machine.assign (Target.plain "i") (.integer i) ⟨0, 0⟩
          block (stmt 5) body)
        [9223372036854775800, 9223372036854775805] m ∧
    stmt 6 (.forLoop "i" first last step body ⟨0, 0⟩) m = .done (.next none) { m with
      globals := ⟨[⟨"i", some (.integer 0), false⟩]⟩
      console := ⟨#["9223372036854775800", "9223372036854775805"], #[], [], none⟩ } := by
  intro first last step body m
  have hloop := forLoop_progression 5 "i" first last step body ⟨0, 0⟩ m m m m 9223372036854775800
    9223372036854775807 5 rfl rfl rfl
  obtain ⟨-, hrun | ⟨-, hfuel⟩⟩ := hloop.2.2.2 (Or.inl (by decide))
  · refine ⟨⟨rfl, rfl, rfl⟩, hrun, ?_⟩
    rw [hrun]
    rfl
  · exact absurd hfuel (by decide)

end Primer.Eval
