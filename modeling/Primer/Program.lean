import Primer.Stmt.Parser
import Primer.Token.Scanner

/-!
# Programs

A source text reads as the statements up to its first failure of the grammar, together with that
failure. A text that cannot be split into tokens does not read as a program at all.
-/

set_option autoImplicit false

namespace Primer

/-- The statements of a source up to the first failure, and the failure. -/
structure Program where
  statements : List Stmt
  fault : Option Fault

namespace Program

/-- The statements from a cursor on, at most as many as the second bound; the first bounds the
recursion within each. -/
def readFrom (bound : Nat) : Nat → Cursor → Program
  | 0, _ => ⟨[], none⟩
  | n + 1, c =>
    match Stmt.nextWithin bound c with
    | .ok none _ => ⟨[], none⟩
    | .ok (some s) c' =>
      let rest := readFrom bound n c'
      ⟨s :: rest.statements, rest.fault⟩
    | .error fault _ => ⟨[], some fault⟩

/-- Reads rows of lexemes. Every statement takes a row, which bounds their number. -/
def ofRows (rows : List Row) : Program :=
  readFrom (Stmt.readBound rows.length) (rows.length + 1) (Cursor.start rows)

/-- Reads the lines of a source. -/
def ofLines (lines : List String) : Except Fault Program :=
  (Scanner.scan lines).map ofRows

/-- All statements, if there is no failure. -/
def complete (p : Program) : Except Fault (List Stmt) :=
  match p.fault with
  | none => .ok p.statements
  | some fault => .error fault

/-- All statements of the lines of a source, if there is no failure. -/
def statementsOf (lines : List String) : Except Fault (List Stmt) :=
  (ofLines lines).bind complete

end Program

end Primer
