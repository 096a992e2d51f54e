import Primer.Numeric.Remainder
import Primer.Value

/-!
# Arithmetic

Integer results are exact or an overflow. Division of integers gives an integer only when it is
exact, `MOD` takes the remainder of truncated division and `DIV` the floor of the quotient. With a
double on either side everything is done on doubles. Texts can be joined.
-/

set_option autoImplicit false

namespace Primer

namespace BinaryOp

/-- Whether a right operand of zero is refused. -/
def isDivision : BinaryOp → Bool
  | .divide | .modulo | .quotient => true
  | _ => false

/-- What is wrong with a right operand of zero. -/
def zeroDivisor : BinaryOp → Cause
  | .modulo => .moduloByZero
  | _ => .divisionByZero

/-- The fault of an operator that does not take operands of these kinds. -/
def unsupported (op : BinaryOp) (left right : Kind) (pos : Position) : Fault :=
  ⟨.unsupportedOperands op left right, pos⟩

/-- An exact result, or an overflow. -/
def fitted (op : BinaryOp) (a b : Int64) (pos : Position) (result : Option Int64) :
    Except Fault Value :=
  match result with
  | some n => .ok (.integer n)
  | none => .error ⟨.overflow op a b, pos⟩

/-- Arithmetic on two integers. -/
def onIntegers (op : BinaryOp) (a b : Int64) (pos : Position) : Except Fault Value :=
  if b = 0 ∧ op.isDivision then .error ⟨op.zeroDivisor, pos⟩
  else
    match op with
    | .add => fitted op a b pos (Integer.fit? (a.toInt + b.toInt))
    | .subtract => fitted op a b pos (Integer.fit? (a.toInt - b.toInt))
    | .multiply => fitted op a b pos (Integer.fit? (a.toInt * b.toInt))
    | .divide =>
      if a % b = 0 then fitted op a b pos (Integer.quotient? a b)
      else .ok (.float (Integer.toFloat a / Integer.toFloat b))
    | .modulo => fitted op a b pos (some (a % b))
    | .quotient => fitted op a b pos (Integer.floor? a b)
    | _ => .error (op.unsupported .integer .integer pos)

/-- Arithmetic on two doubles. -/
def onFloats (op : BinaryOp) (a b : Float) (pos : Position) : Except Fault Value :=
  if b == 0.0 && op.isDivision then .error ⟨op.zeroDivisor, pos⟩
  else
    match op with
    | .add => .ok (.float (a + b))
    | .subtract => .ok (.float (a - b))
    | .multiply => .ok (.float (a * b))
    | .divide => .ok (.float (a / b))
    | .modulo => .ok (.float (remainder a b))
    | .quotient => .ok (.float (a / b).floor)
    | _ => .error (op.unsupported .float .float pos)

/-- Arithmetic on two values. -/
def arithmetic (op : BinaryOp) (left right : Value) (pos : Position) : Except Fault Value :=
  match left, right with
  | .integer a, .integer b => op.onIntegers a b pos
  | .text a, .text b =>
    if op = .add then .ok (.text (a ++ b)) else .error (op.unsupported .text .text pos)
  | l, r =>
    match l.toFloat?, r.toFloat? with
    | some a, some b => op.onFloats a b pos
    | _, _ => .error (op.unsupported l.kind r.kind pos)

end BinaryOp

end Primer
