import Primer.Stmt.Parser

/-!
# Rendering programs

The tokens that a program is written with, row by row. Operators bind in the documented order, from
the loosest: `AND` and `OR` on one level, the prefix `NOT`, comparisons, sums, products, powers, the
signs, and last the argument lists of calls; operators of one level associate to the left. An
operand stands in parentheses only if it binds more loosely than its place asks for.

Not every tree of statements can be written: subroutines do not nest, a return stands in a
subroutine, only a function returns a value, and parameters are distinct (`Stmt.wellFormed`).
-/

set_option autoImplicit false

namespace Primer

/-- How tightly an operator between two operands binds. -/
def BinaryOp.precedence : BinaryOp → Nat
  | conj | disj => 0
  | compare _ => 2
  | add | subtract => 3
  | multiply | divide | modulo | quotient => 4
  | power => 5

/-- How tightly an operator before its operand binds. -/
def UnaryOp.precedence : UnaryOp → Nat
  | negation => 1
  | plus | minus => 6

/-- How tightly the outermost construct of an expression binds. -/
def Expr.precedence : Expr → Nat
  | .unary op _ _ => op.precedence
  | .binary op _ _ _ => op.precedence
  | .literal _ _ | .name _ _ | .call _ _ _ => 7

/-- The token of a comparison. -/
def Comparison.token : Comparison → Token
  | equal => .mark .equal
  | notEqual => .mark .notEqual
  | less => .mark .less
  | lessEqual => .mark .lessEqual
  | greater => .mark .greater
  | greaterEqual => .mark .greaterEqual

/-- The token of an operator. -/
def BinaryOp.token : BinaryOp → Token
  | add => .mark .plus
  | subtract => .mark .minus
  | multiply => .mark .star
  | divide => .mark .slash
  | modulo => .keyword .kwMod
  | quotient => .keyword .kwDiv
  | power => .mark .caret
  | conj => .keyword .kwAnd
  | disj => .keyword .kwOr
  | compare c => c.token

/-- The token of an operator. -/
def UnaryOp.token : UnaryOp → Token
  | plus => .mark .plus
  | minus => .mark .minus
  | negation => .keyword .kwNot

/-- The token of a literal. -/
def Literal.token : Literal → Token
  | integer n => .integer n
  | float x => .float x
  | boolean b => .boolean b
  | text s => .text s

namespace Token

/-- Tokens between parentheses. -/
def inParens (ts : List Token) : List Token := .mark .openParen :: (ts ++ [.mark .closeParen])

/-- Tokens between parentheses if these are needed. -/
def wrapped (needed : Bool) (ts : List Token) : List Token := if needed then inParens ts else ts

/-- Lists of tokens with commas between them. -/
def separated : List (List Token) → List Token
  | [] => []
  | [ts] => ts
  | ts :: rest => ts ++ .mark .comma :: separated rest

end Token

mutual

/-- The tokens of an expression. -/
def Expr.tokens : Expr → List Token
  | .literal v _ => [v.token]
  | .name id _ => [.name id]
  | .unary op e _ => op.token :: Token.wrapped (e.precedence < op.precedence) e.tokens
  | .binary op l r _ =>
    Token.wrapped (l.precedence < op.precedence) l.tokens ++
      op.token :: Token.wrapped (r.precedence ≤ op.precedence) r.tokens
  | .call c es _ =>
    Token.wrapped (c.precedence < 7) c.tokens ++
      Token.inParens (Token.separated (Expr.tokensOf es))

/-- The tokens of each of some expressions. -/
def Expr.tokensOf : List Expr → List (List Token)
  | [] => []
  | e :: es => e.tokens :: Expr.tokensOf es

end

/-- The tokens of what an assignment writes. -/
def Target.tokens (target : Target) : List Token :=
  (if target.sealing then [.keyword .kwConst] else []) ++
    (if target.isGlobal then [.keyword .kwGlobal] else []) ++ [.name target.name]

mutual

/-- The rows of a statement. -/
def Stmt.rows : Stmt → List (List Token)
  | .expr e => [e.tokens]
  | .assign target e _ => [target.tokens ++ .mark .assign :: e.tokens]
  | .define kind name params body _ =>
    (.keyword kind.opener :: .name name ::
        Token.inParens (Token.separated (params.map fun param => [.name param]))) ::
      (Stmt.rowsOf body ++ [[.keyword kind.closer]])
  | .ret none _ => [[.keyword .kwReturn]]
  | .ret (some e) _ => [.keyword .kwReturn :: e.tokens]
  | .branch c body rest _ =>
    (.keyword .kwIf :: (c.tokens ++ [.keyword .kwThen])) ::
      (Stmt.rowsOf body ++ (rest.rows ++ [[.keyword .kwEndif]]))
  | .whileLoop c body _ =>
    (.keyword .kwWhile :: c.tokens) :: (Stmt.rowsOf body ++ [[.keyword .kwEndwhile]])
  | .untilLoop body c _ =>
    [.keyword .kwDo] :: (Stmt.rowsOf body ++ [.keyword .kwUntil :: c.tokens])
  | .forLoop counter first last step body _ =>
    (.keyword .kwFor :: .name counter :: .mark .assign :: (first.tokens ++ .keyword .kwTo ::
        (last.tokens ++ .keyword .kwStep :: step.tokens))) ::
      (Stmt.rowsOf body ++ [[.keyword .kwNext, .name counter]])

/-- The rows of a list of statements. -/
def Stmt.rowsOf : List Stmt → List (List Token)
  | [] => []
  | s :: rest => s.rows ++ Stmt.rowsOf rest

/-- The rows of the further arms of a conditional. -/
def Arms.rows : Arms → List (List Token)
  | .done => []
  | .otherwise body => [.keyword .kwElse] :: Stmt.rowsOf body
  | .elseif c body rest =>
    (.keyword .kwElseif :: (c.tokens ++ [.keyword .kwThen])) :: (Stmt.rowsOf body ++ rest.rows)

end

mutual

/-- Whether a statement can stand in the given subroutine. -/
def Stmt.wellFormed (inside : Option SubroutineKind) : Stmt → Bool
  | .expr _ | .assign _ _ _ => true
  | .define kind _ params body _ =>
    inside.isNone && decide params.Nodup && Stmt.wellFormedAll (some kind) body
  | .ret none _ => inside.isSome
  | .ret (some _) _ => inside == some .function
  | .branch _ body rest _ => Stmt.wellFormedAll inside body && rest.wellFormed inside
  | .whileLoop _ body _ | .untilLoop body _ _ | .forLoop _ _ _ _ body _ =>
    Stmt.wellFormedAll inside body

/-- Whether statements can stand in the given subroutine. -/
def Stmt.wellFormedAll (inside : Option SubroutineKind) : List Stmt → Bool
  | [] => true
  | s :: rest => s.wellFormed inside && Stmt.wellFormedAll inside rest

/-- Whether arms can stand in the given subroutine. -/
def Arms.wellFormed (inside : Option SubroutineKind) : Arms → Bool
  | .done => true
  | .otherwise body => Stmt.wellFormedAll inside body
  | .elseif _ body rest => Stmt.wellFormedAll inside body && rest.wellFormed inside

end

end Primer
