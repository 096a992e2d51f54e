import Primer.Eval.Control
import Primer.Native.Call
import Primer.Operator.Apply

/-!
# Evaluation

`Eval.expr` gives the value of an expression, if it has one, and `Eval.stmt` runs a statement. The
two call each other and recurse on fuel: each nested expression, statement or call takes one unit,
and so does each pass of a loop. More fuel than a run needs does not change it.
-/

set_option autoImplicit false

namespace Primer.Eval

variable {κ : Type} [Dialogue κ]

mutual

/-- The value of an expression, if it has one. -/
def expr : Nat → Expr → Exec κ (Option Value)
  | 0, _ => Exec.exhausted
  | _ + 1, .literal v _ => pure (some (Value.ofLiteral v))
  | _ + 1, .name id pos => fun m =>
    match m.lookup id pos with
    | .ok v => .done (some v) m
    | .error fault => .failed fault m
  | n + 1, .unary op e pos => do
    let v ← required e (expr n e)
    let w ← Exec.ofExcept (op.apply v pos)
    pure (some w)
  | n + 1, .binary op l r pos => do
    let a ← required l (expr n l)
    let b ← required r (expr n r)
    let v ← Exec.ofExcept (op.apply a b pos)
    pure (some v)
  | n + 1, .call callee arguments pos => do
    match ← required callee (expr n callee) with
    | .callable (.native native) =>
      let args ← each (expr n) arguments
      native.call args pos
    | .callable (.user s) =>
      let args ← each (expr n) arguments
      callUser (stmt n) s args pos
    | other => Exec.fail ⟨.notCallable other.kind other.shown, pos⟩

/-- Runs a statement. -/
def stmt : Nat → Stmt → Exec κ Flow
  | 0, _ => Exec.exhausted
  | n + 1, .expr e => do
    let v ← expr n e
    pure (.next v)
  | n + 1, .assign target e pos => do
    let v ← required e (expr n e)
    Machine.assign target v pos
    pure (.next none)
  | _ + 1, .define kind name params body pos => do
    Machine.assign (Target.plain name) (.callable (.user ⟨kind, name, params, body⟩)) pos
    pure (.next none)
  | _ + 1, .ret none _ => pure (.returned none)
  | n + 1, .ret (some e) _ => do
    let v ← required e (expr n e)
    pure (.returned (some v))
  | n + 1, .branch c body rest _ => do
    if ← condition "'if' condition" c (expr n c) then block (stmt n) body
    else arms (expr n) (stmt n) rest
  | n + 1, .whileLoop c body _ =>
    whileLoop (condition "'while' condition" c (expr n c)) (block (stmt n) body) n
  | n + 1, .untilLoop body c _ =>
    untilLoop (block (stmt n) body) (condition "'until' condition" c (expr n c)) n
  | n + 1, .forLoop counter first last step body pos => do
    let a ← bound "'for' start value" first (expr n first)
    let b ← bound "'for' end value" last (expr n last)
    let s ← bound "'for' step" step (expr n step)
    if s.toInt = 0 then Exec.fail ⟨.zeroStep, step.position⟩
    else if unreachable a b s then Exec.fail ⟨.unreachableBound a b s, pos⟩
    else
      countLoop
        (fun i => do
          Machine.assign (Target.plain counter) (.integer i) pos
          block (stmt n) body)
        b s n a

end

end Primer.Eval
