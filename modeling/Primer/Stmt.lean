import Primer.Block
import Primer.Expr

/-!
# Statements

A program is a list of statements. A conditional has its first arm by construction, and the words
after it are an `Arms`: further conditions, a final alternative, or nothing.
-/

set_option autoImplicit false

namespace Primer

/-- What an assignment writes: a name, sealed against later writes if `sealing`, and in the global
table if `isGlobal`. -/
structure Target where
  name : String
  sealing : Bool
  isGlobal : Bool
deriving DecidableEq, Repr

/-- A name that is written without a qualifier. -/
def Target.plain (name : String) : Target := ⟨name, false, false⟩

mutual

/-- A statement. -/
inductive Stmt where
  | expr (e : Expr)
  | assign (target : Target) (value : Expr) (pos : Position)
  | define (kind : SubroutineKind) (name : String) (params : List String) (body : List Stmt)
      (pos : Position)
  | ret (value : Option Expr) (pos : Position)
  | branch (condition : Expr) (body : List Stmt) (rest : Arms) (pos : Position)
  | whileLoop (condition : Expr) (body : List Stmt) (pos : Position)
  | untilLoop (body : List Stmt) (condition : Expr) (pos : Position)
  | forLoop (counter : String) (first last step : Expr) (body : List Stmt) (pos : Position)
deriving Repr

/-- What follows an arm of a conditional. -/
inductive Arms where
  | done
  | otherwise (body : List Stmt)
  | elseif (condition : Expr) (body : List Stmt) (rest : Arms)
deriving Repr

end

/-- Where a fault in the statement as a whole is reported. -/
def Stmt.position : Stmt → Position
  | .expr e => e.position
  | .assign _ _ pos | .define _ _ _ _ pos | .ret _ pos | .branch _ _ _ pos | .whileLoop _ _ pos
  | .untilLoop _ _ pos | .forLoop _ _ _ _ _ pos => pos

end Primer
