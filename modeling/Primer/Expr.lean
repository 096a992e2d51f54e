import Primer.Operator
import Primer.Position

/-!
# Expressions

The trees that values are computed from. Every node carries the position that faults in it are
reported at: an operator's node the operator, a call the opening parenthesis.
-/

set_option autoImplicit false

namespace Primer

/-- A value written in the source. -/
inductive Literal where
  | integer (n : Int64)
  | float (x : Float)
  | boolean (b : Bool)
  | text (s : String)
deriving DecidableEq, Repr

/-- An expression. -/
inductive Expr where
  | literal (value : Literal) (pos : Position)
  | name (id : String) (pos : Position)
  | unary (op : UnaryOp) (operand : Expr) (pos : Position)
  | binary (op : BinaryOp) (left right : Expr) (pos : Position)
  | call (callee : Expr) (arguments : List Expr) (pos : Position)
deriving Repr

/-- Where a fault in the expression as a whole is reported. -/
def Expr.position : Expr → Position
  | .literal _ pos | .name _ pos | .unary _ _ pos | .binary _ _ _ pos | .call _ _ pos => pos

end Primer
