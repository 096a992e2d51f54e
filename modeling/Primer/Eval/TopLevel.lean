import Primer.Eval
import Primer.Program

/-!
# Running programs

Statements outside of all blocks run one after the other; the value of each is shown if the state
asks for it. A program with a failure of the grammar runs up to it.
-/

set_option autoImplicit false

namespace Primer.Eval

variable {κ : Type} [Dialogue κ]

/-- The value of a statement that is an expression; another statement has none. -/
def valueOf (fuel : Nat) : Stmt → Exec κ (Option Value)
  | .expr e => expr fuel e
  | s => Exec.fail ⟨.statementAsValue, s.position⟩

/-- The value of a statement that must be an expression with a value. -/
def requiredValueOf (fuel : Nat) : Stmt → Exec κ Value
  | .expr e => required e (expr fuel e)
  | s => Exec.fail ⟨.statementAsValue, s.position⟩

/-- Runs a statement outside of all blocks and shows its value if values are to be shown. -/
def topLevel (fuel : Nat) (s : Stmt) : Exec κ (Option Value) := do
  let flow ← stmt fuel s
  match flow.value with
  | none => pure none
  | some v => fun m =>
    if m.echo then
      match Dialogue.writeLine v.shown s.position m with
      | .done _ m' => .done (some v) m'
      | .failed fault m' => .failed fault m'
      | .panicked least most console => .panicked least most console
      | .outOfFuel => .outOfFuel
    else .done (some v) m

/-- Runs statements outside of all blocks, in order. -/
def topLevels (fuel : Nat) : List Stmt → Exec κ Unit
  | [] => pure ()
  | s :: rest => do
    let _ ← topLevel fuel s
    topLevels fuel rest

/-- Runs a program: its statements, and then its failure if it has one. -/
def program (fuel : Nat) (p : Program) : Exec κ Unit := do
  topLevels fuel p.statements
  match p.fault with
  | none => pure ()
  | some fault => Exec.fail fault

/-- Runs the lines of a source. Nothing runs unless all lines can be split into tokens. -/
def lines (fuel : Nat) (source : List String) : Exec κ Unit :=
  match Program.ofLines source with
  | .error fault => Exec.fail fault
  | .ok p => program fuel p

end Primer.Eval
