/-!
# Operators

The operators of expressions and their spellings.
-/

set_option autoImplicit false

namespace Primer

/-- An operator that compares. -/
inductive Comparison where
  | equal | notEqual | less | lessEqual | greater | greaterEqual
deriving DecidableEq, Repr

/-- The spelling. -/
def Comparison.text : Comparison → String
  | .equal => "=="
  | .notEqual => "!="
  | .less => "<"
  | .lessEqual => "<="
  | .greater => ">"
  | .greaterEqual => ">="

/-- An operator with two operands. `quotient` is whole-number division. -/
inductive BinaryOp where
  | add | subtract | multiply | divide | modulo | quotient | power
  | conj | disj
  | compare (c : Comparison)
deriving DecidableEq, Repr

/-- The spelling. -/
def BinaryOp.text : BinaryOp → String
  | .add => "+"
  | .subtract => "-"
  | .multiply => "*"
  | .divide => "/"
  | .modulo => "MOD"
  | .quotient => "DIV"
  | .power => "^"
  | .conj => "AND"
  | .disj => "OR"
  | .compare c => c.text

/-- An operator with one operand. -/
inductive UnaryOp where
  | plus | minus | negation
deriving DecidableEq, Repr

/-- The spelling. -/
def UnaryOp.text : UnaryOp → String
  | .plus => "+"
  | .minus => "-"
  | .negation => "NOT"

end Primer
