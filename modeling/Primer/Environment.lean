import Primer.Draws
import Primer.Files

/-!
# What surrounds a run

The command line relies on parts that are not its own: what reads the arguments, the files, the log,
the line editor of a session, the generator of random numbers, and what reports a panic. An
`Environment` is any choice of them.
-/

set_option autoImplicit false

namespace Primer.CommandLine

/-- What the arguments ask for. -/
structure Options where
  file : Bool
  echo : Bool
  contents : Option String
deriving DecidableEq, Repr

/-- What a run leaves behind. -/
structure Ending where
  stdout : String
  stderr : String
  exit : Nat
deriving DecidableEq, Repr

/-- The log, which goes to the standard error: what is written to it while a script is run, or while
a session takes a line, by number. A variable of the surrounding system says which records are
written. If it says nothing, these are warnings and errors, and a run has records of lower levels
only. -/
structure Log where
  asked : Option String
  written : Nat → String
  quiet (h : asked = none) (n : Nat) : written n = ""

/-- A log that nothing is written to. -/
def Log.silent : Log := ⟨none, fun _ => "", fun _ _ => rfl⟩

/-- What a line editor comes back with when it was asked for a line. -/
inductive Edited where
  | line (text : String)
  | interrupted
  | ended
  | failed (problem : String)
  | panicked

/-- Asks for a line, given the lines that it may offer again and a prompt. It reads and writes the
streams that a run reads and writes too. -/
def Editor : Type := List String → String → Stream → Edited × Stream

/-- The parts that a run relies on. Reading the arguments may end the run; the line editor may fail
to start. -/
structure Environment where
  arguments : List String → Except Ending Options
  files : String → FileRead
  log : Log
  editor : Except String Editor
  draws : Draws
  panicReport : String

end Primer.CommandLine
