import Primer.Operator.Arithmetic
import Primer.Operator.Order
import Primer.Operator.Power

/-!
# Applying operators

Which rule each operator follows.
-/

set_option autoImplicit false

namespace Primer

/-- What messages call an operand of an operator. -/
def operandOf (text : String) : String := "Operand of " ++ Cause.quoted text

/-- Conjunction and disjunction of two truth values, both of which are always looked at. -/
def BinaryOp.logic (op : BinaryOp) (left right : Value) (pos : Position) : Except Fault Value := do
  let a ← left.toBoolean (operandOf op.text) pos
  let b ← right.toBoolean (operandOf op.text) pos
  match op with
  | .conj => .ok (.boolean (a && b))
  | .disj => .ok (.boolean (a || b))
  | _ => .error (op.unsupported left.kind right.kind pos)

/-- The result of an operator on two values. -/
def BinaryOp.apply (op : BinaryOp) (left right : Value) (pos : Position) : Except Fault Value :=
  match op with
  | .add | .subtract | .multiply | .divide | .modulo | .quotient => op.arithmetic left right pos
  | .power => BinaryOp.raise left right pos
  | .compare c => c.apply left right pos
  | .conj | .disj => op.logic left right pos

/-- The result of an operator on one value. -/
def UnaryOp.apply (op : UnaryOp) (v : Value) (pos : Position) : Except Fault Value :=
  match op, v with
  | .plus, .integer n => .ok (.integer n)
  | .plus, .float x => .ok (.float x)
  | .minus, .integer n =>
    match Integer.fit? (-n.toInt) with
    | some k => .ok (.integer k)
    | none => .error ⟨.negationOverflow n, pos⟩
  | .minus, .float x => .ok (.float (-x))
  | .negation, v => (v.toBoolean (operandOf op.text) pos).map fun b => .boolean !b
  | op, v => .error ⟨.notNumeric op v.kind, pos⟩

end Primer
