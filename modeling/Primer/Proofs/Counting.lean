import Primer.Eval
import Primer.Proofs.Integer

/-!
# Counting loops

A counting loop evaluates its bounds once (`Eval.loopBounds`), checks them, and then makes passes;
a pass writes the counter and runs the body (`Eval.pass`). Each step brings the counter nearer to
the last value (`Eval.distance_lt`), which bounds the number of passes.
-/

set_option autoImplicit false

namespace Primer

namespace Eval

variable {κ : Type}

/-! ## Steps of the counter -/

/-- The number is not past the last value, in the direction of the step. -/
def Within (last step : Int64) (v : Int) : Prop :=
  if 0 < step.toInt then v ≤ last.toInt else last.toInt ≤ v

/-- The counter moves on exactly if the next number does not pass the last one. -/
theorem nextCounter?_eq_some_iff {counter last step next : Int64} :
    nextCounter? counter last step = some next ↔
      next.toInt = counter.toInt + step.toInt ∧ Within last step next.toInt := by
  rw [← Integer.fit?_eq_some_iff]
  unfold nextCounter? Within
  cases hfit : Integer.fit? (counter.toInt + step.toInt) with
  | none => simp
  | some k =>
    dsimp only
    split <;> split <;> grind

/-- How far a counter is from the last value, in the direction of the step. -/
def distance (last step counter : Int64) : Nat :=
  if 0 < step.toInt then (last.toInt - counter.toInt).toNat
  else (counter.toInt - last.toInt).toNat

/-- Every pass brings the counter closer to the last number. -/
theorem distance_lt {counter last step next : Int64} (hstep : step.toInt ≠ 0)
    (h : nextCounter? counter last step = some next) :
    distance last step next < distance last step counter := by
  obtain ⟨hnext, hwithin⟩ := nextCounter?_eq_some_iff.1 h
  unfold Within at hwithin
  unfold distance
  by_cases hpositive : 0 < step.toInt
  · simp only [if_pos hpositive] at hwithin ⊢
    omega
  · simp only [if_neg hpositive] at hwithin ⊢
    omega

/-! ## The loop as bounds and passes -/

variable [Console κ]

/-- The first value, the last value and the step of a counting loop. -/
def loopBounds (n : Nat) (first last step : Expr) : Exec κ (Int64 × Int64 × Int64) := do
  let a ← bound "'for' start value" first (expr n first)
  let b ← bound "'for' end value" last (expr n last)
  let s ← bound "'for' step" step (expr n step)
  pure (a, b, s)

/-- A pass of a counting loop. -/
def pass (n : Nat) (counter : String) (body : List Stmt) (pos : Position) (i : Int64) :
    Exec κ Flow := do
  Machine.assign (Target.plain counter) (.integer i) pos
  block (stmt n) body

/-- A counting loop is its bounds, two checks, and its passes. -/
theorem stmt_forLoop (n : Nat) (counter : String) (first last step : Expr) (body : List Stmt)
    (pos : Position) :
    (stmt (n + 1) (.forLoop counter first last step body pos) : Exec κ Flow) =
      loopBounds n first last step >>= fun (a, b, s) =>
        if s.toInt = 0 then Exec.fail ⟨.zeroStep, step.position⟩
        else if unreachable a b s then Exec.fail ⟨.unreachableBound a b s, pos⟩
        else countLoop (pass n counter body pos) b s n a := by
  funext m
  simp only [stmt, loopBounds, bind]
  -- each bound may fail or run out of fuel, on both sides alike
  cases bound "'for' start value" first (expr n first) m with
  | failed fault m₁ => rfl
  | panicked least most console => rfl
  | outOfFuel => rfl
  | done a m₁ =>
    dsimp only
    cases bound "'for' end value" last (expr n last) m₁ with
    | failed fault m₂ => rfl
    | panicked least most console => rfl
    | outOfFuel => rfl
    | done b m₂ =>
      dsimp only
      cases bound "'for' step" step (expr n step) m₂ with
      | failed fault m₃ => rfl
      | panicked least most console => rfl
      | outOfFuel => rfl
      | done s m₃ => rfl

end Eval

end Primer
