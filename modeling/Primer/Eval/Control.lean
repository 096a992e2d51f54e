import Primer.Machine
import Primer.Native.Conversion

/-!
# Control flow

Combinators that take the computations they compose: blocks stop at the first return, loops repeat
until their condition or bound says otherwise, calls run in a table of their own. None of them
knows how expressions and statements are run.
-/

set_option autoImplicit false

namespace Primer

/-- How a statement ends: on to the next one, or out of the subroutine. -/
inductive Flow where
  | next (value : Option Value)
  | returned (value : Option Value)

/-- The value that a statement ended with. -/
def Flow.value : Flow → Option Value
  | next v => v
  | returned v => v

namespace Eval

variable {κ : Type}

/-- The number of nested calls from which on no further call is made. -/
def maxDepth : Nat := 1500

/-- What is wrong with an expression that gives no value where one is needed. -/
def missingValue : Expr → Cause
  | .call (.name id _) _ _ => .noReturnedValue (some id)
  | .call _ _ _ => .noReturnedValue none
  | _ => .noValue

/-- Asks the computation of an expression for a value. -/
@[inline]
def required (e : Expr) (x : Exec κ (Option Value)) : Exec κ Value := do
  match ← x with
  | some v => pure v
  | none => Exec.fail ⟨missingValue e, e.position⟩

/-- The values of expressions, from left to right. -/
def each (eval : Expr → Exec κ (Option Value)) : List Expr → Exec κ (List Value)
  | [] => pure []
  | e :: es => do
    let v ← required e (eval e)
    let vs ← each eval es
    pure (v :: vs)

/-- The truth value of a condition. -/
@[inline]
def condition (subject : String) (e : Expr) (x : Exec κ (Option Value)) : Exec κ Bool := do
  let v ← required e x
  Exec.ofExcept (v.toBoolean subject e.position)

/-- The integer that bounds a counting loop. -/
@[inline]
def bound (subject : String) (e : Expr) (x : Exec κ (Option Value)) : Exec κ Int64 := do
  let v ← required e x
  Exec.ofExcept (v.toInteger subject e.position)

/-- Statements in order, up to the first return. -/
def block (run : Stmt → Exec κ Flow) : List Stmt → Exec κ Flow
  | [] => pure (.next none)
  | s :: rest => do
    match ← run s with
    | .next _ => block run rest
    | .returned v => pure (.returned v)

/-- The arms of a conditional after one whose condition did not hold. -/
def arms (eval : Expr → Exec κ (Option Value)) (run : Stmt → Exec κ Flow) : Arms → Exec κ Flow
  | .done => pure (.next none)
  | .otherwise body => block run body
  | .elseif c body rest => do
    if ← condition "'if' condition" c (eval c) then block run body else arms eval run rest

/-- Repeats a body as long as a condition holds. -/
def whileLoop (test : Exec κ Bool) (body : Exec κ Flow) : Nat → Exec κ Flow
  | 0 => Exec.exhausted
  | n + 1 => do
    if ← test then
      match ← body with
      | .next _ => whileLoop test body n
      | .returned v => pure (.returned v)
    else pure (.next none)

/-- Repeats a body until a condition holds after it. -/
def untilLoop (body : Exec κ Flow) (test : Exec κ Bool) : Nat → Exec κ Flow
  | 0 => Exec.exhausted
  | n + 1 => do
    match ← body with
    | .next _ => if ← test then pure (.next none) else untilLoop body test n
    | .returned v => pure (.returned v)

/-- The counter after another step, if it is still within the bound and in range. -/
def nextCounter? (counter last step : Int64) : Option Int64 :=
  match Integer.fit? (counter.toInt + step.toInt) with
  | some next =>
    if 0 < step.toInt then
      if next.toInt ≤ last.toInt then some next else none
    else if last.toInt ≤ next.toInt then some next
    else none
  | none => none

/-- Repeats a body for a counter and the counters after it. -/
def countLoop (body : Int64 → Exec κ Flow) (last step : Int64) : Nat → Int64 → Exec κ Flow
  | 0, _ => Exec.exhausted
  | n + 1, counter => do
    match ← body counter with
    | .returned v => pure (.returned v)
    | .next _ =>
      match nextCounter? counter last step with
      | some next => countLoop body last step n next
      | none => pure (.next none)

/-- Whether the last value of a counting loop cannot be reached from the first. -/
def unreachable (first last step : Int64) : Bool :=
  if 0 < step.toInt then last.toInt < first.toInt else first.toInt < last.toInt

/-- The table of a call: each parameter holds its argument. -/
def bindParams (params : List String) (args : List Value) : Table :=
  (params.zip args).foldl (fun t (p, v) => t.put ⟨p, some v, false⟩) Table.empty

/-- Calls a subroutine of the program. The flow that its body ends with gives the value. -/
@[inline]
def callUser (run : Stmt → Exec κ Flow) (s : Subroutine) (args : List Value) (pos : Position) :
    Exec κ (Option Value) := do
  Exec.ofExcept (checkArity s.name s.params.length s.params.length args.length pos)
  fun m =>
    if maxDepth ≤ m.depth then .failed ⟨.callDepth maxDepth, pos⟩ m
    else
      match Machine.inCall (bindParams s.params args) (block run s.body) m with
      | .done flow m' => .done flow.value m'
      | .failed fault m' => .failed fault m'
      | .panicked least most console => .panicked least most console
      | .outOfFuel => .outOfFuel

end Eval

end Primer
