import Primer.Expr
import Primer.Line

/-!
# Parsing expressions

Binary operators have five levels of precedence. On each level operands are read at the next
tighter level and folded to the left. The prefix `NOT` binds looser than comparisons and tighter
than `AND` and `OR`; signs and calls bind tightest.

The functions recurse on a bound that `Expr.read` takes from the length of the row; every step from
one token to the next costs at most twelve.
-/

set_option autoImplicit false

namespace Primer

/-- A level of precedence, from the loosest to the tightest. -/
inductive Level where
  | logic | comparison | sum | product | power
deriving DecidableEq, Repr

/-- The operator that a token is on a level. -/
def Level.operator? : Level → Token → Option BinaryOp
  | .logic, .keyword .kwAnd => some .conj
  | .logic, .keyword .kwOr => some .disj
  | .comparison, .mark .equal => some (.compare .equal)
  | .comparison, .mark .notEqual => some (.compare .notEqual)
  | .comparison, .mark .less => some (.compare .less)
  | .comparison, .mark .lessEqual => some (.compare .lessEqual)
  | .comparison, .mark .greater => some (.compare .greater)
  | .comparison, .mark .greaterEqual => some (.compare .greaterEqual)
  | .sum, .mark .plus => some .add
  | .sum, .mark .minus => some .subtract
  | .product, .mark .star => some .multiply
  | .product, .mark .slash => some .divide
  | .product, .keyword .kwMod => some .modulo
  | .product, .keyword .kwDiv => some .quotient
  | .power, .mark .caret => some .power
  | _, _ => none

namespace Expr

open LineReader

mutual

/-- Operands and operators of one level. -/
def readLevel : Nat → Level → LineReader Expr
  | 0, _ => failAtPrevious .incomplete
  | n + 1, level => do
    let left ← readOperand n level
    readMore n level left

/-- Further operators of a level, folded to the left onto what was read. -/
def readMore : Nat → Level → Expr → LineReader Expr
  | 0, _, _ => failAtPrevious .incomplete
  | n + 1, level, left => do
    match (← peek).bind level.operator? with
    | none => pure left
    | some op =>
      let pos ← advancePosition
      requireMore
      let right ← readOperand n level
      readMore n level (.binary op left right pos)

/-- An operand of a level: what the next tighter level reads. -/
def readOperand : Nat → Level → LineReader Expr
  | 0, _ => failAtPrevious .incomplete
  | n + 1, .logic => readNegation n
  | n + 1, .comparison => readLevel n .sum
  | n + 1, .sum => readLevel n .product
  | n + 1, .product => readLevel n .power
  | n + 1, .power => readFactor n

/-- A comparison after any number of `NOT`. -/
def readNegation : Nat → LineReader Expr
  | 0 => failAtPrevious .incomplete
  | n + 1 => do
    if ← check (.keyword .kwNot) then
      let pos ← advancePosition
      requireMore
      let operand ← readNegation n
      pure (.unary .negation operand pos)
    else readLevel n .comparison

/-- A signed factor, or a primary with its calls. -/
def readFactor : Nat → LineReader Expr
  | 0 => failAtPrevious .incomplete
  | n + 1 => do
    match ← advance with
    | none => failAtPrevious .incomplete
    | some ⟨.integer k, pos⟩ => readCalls n (.literal (.integer k) pos)
    | some ⟨.float x, pos⟩ => readCalls n (.literal (.float x) pos)
    | some ⟨.boolean b, pos⟩ => readCalls n (.literal (.boolean b) pos)
    | some ⟨.text s, pos⟩ => readCalls n (.literal (.text s) pos)
    | some ⟨.name s, pos⟩ => readCalls n (.name s pos)
    | some ⟨.keyword k, pos⟩ => throw ⟨.unexpectedToken (.keyword k), pos⟩
    | some ⟨.mark m, pos⟩ =>
      match m with
      | .plus =>
        requireMore
        let operand ← readFactor n
        pure (.unary .plus operand pos)
      | .minus =>
        requireMore
        let operand ← readFactor n
        pure (.unary .minus operand pos)
      | .openParen =>
        requireMore
        let inner ← readLevel n .logic
        let _ ← expect (.mark .closeParen) .closeParen
        readCalls n inner
      | _ => throw ⟨.unexpectedToken (.mark m), pos⟩

/-- Any number of argument lists after a callee. -/
def readCalls : Nat → Expr → LineReader Expr
  | 0, _ => failAtPrevious .incomplete
  | n + 1, callee => do
    if ← check (.mark .openParen) then
      let pos ← advancePosition
      let arguments ← parenthesised (readLevel n .logic) pos n
      readCalls n (.call callee arguments pos)
    else pure callee

end

/-- A bound on the recursion that a row of the given length can need. -/
def readBound (length : Nat) : Nat := 12 * (length + 1)

/-- Reads an expression of the loosest level. -/
def read : LineReader Expr := fun l =>
  readLevel (readBound l.rest.length) .logic l

end Expr

end Primer
