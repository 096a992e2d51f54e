import Primer.Machine
import Primer.Native.Character
import Primer.Native.Draw

/-!
# Calling what the language provides

Printing yields no value; every other provided subroutine yields one.
-/

set_option autoImplicit false

namespace Primer.Native

variable {κ : Type}

/-- Shows the written form of the only argument. -/
def printLine [Dialogue κ] (args : List Value) (pos : Position) : Exec κ Unit := do
  let v ← Exec.ofExcept (single .print args pos)
  Dialogue.writeLine v.shown pos

/-- Takes a line, after a prompt if one is given. -/
def inputLine [Dialogue κ] (args : List Value) (pos : Position) : Exec κ Value :=
  match args with
  | [] => Value.text <$> Dialogue.readLine "" pos
  | [.text prompt] => Value.text <$> Dialogue.readLine prompt pos
  | [v] => Exec.fail ⟨.wrongArgument input.name "a String prompt" v.kind, pos⟩
  | _ => Exec.fail ⟨.wrongArity input.name 0 1 args.length, pos⟩

/-- Draws a number with the machine's generator, and panics if that breaks off. -/
def drawNumber (args : List Value) (pos : Position) : Exec κ Value := fun m =>
  match draw m.draws args pos with
  | .ok (.number v draws) => .done v { m with draws := draws }
  | .ok (.tooWide least most) => .panicked least most m.console
  | .error fault => .failed fault m

/-- Calls a provided subroutine. -/
def call [Dialogue κ] (native : Native) (args : List Value) (pos : Position) :
    Exec κ (Option Value) :=
  match native with
  | .print => do
    printLine args pos
    pure none
  | .input => some <$> inputLine args pos
  | .random => some <$> drawNumber args pos
  | .str => some <$> Exec.ofExcept (toText args pos)
  | .int => some <$> Exec.ofExcept (toInteger args pos)
  | .float => some <$> Exec.ofExcept (toFloat args pos)
  | .bool => some <$> Exec.ofExcept (toBoolean args pos)
  | .asc => some <$> Exec.ofExcept (codeOf args pos)
  | .chr => some <$> Exec.ofExcept (ofCode args pos)

end Primer.Native
