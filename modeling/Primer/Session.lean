import Primer.Eval.TopLevel
import Primer.Text.Blank

/-!
# Interactive sessions

A session collects lines into entries. While the lines of an entry fail only because the input
ends, more lines are asked for; otherwise the entry is run or reported, and the next line starts a
new one.
-/

set_option autoImplicit false

namespace Primer

/-- A session: the state of its run, and the lines of the entry that is not finished. -/
structure Session (κ : Type) where
  machine : Machine κ
  pending : List String

/-- What became of a line. A panic ends more than the entry, and `stuck` is the answer for an entry
that ran out of fuel. -/
inductive Verdict where
  | quit
  | more
  | ran
  | failed (report : String)
  | panicked
  | stuck
deriving DecidableEq, Repr

namespace Session

variable {κ : Type}

/-- A new session; it shows the values of statements. -/
def start (console : κ) (draws : Draws) : Session κ :=
  ⟨Machine.start console true draws, []⟩

/-- The prompt for the next line. -/
def prompt (s : Session κ) : String :=
  if s.pending.isEmpty then " ERL ==> " else "   ... "

/-- Drops the lines of the entry that is not finished. -/
def discard (s : Session κ) : Session κ := { s with pending := [] }

/-- Whether a line asks to end the session. -/
def isQuit (line : String) : Bool :=
  Text.trim line.toList == "QUIT()".toList

/-- Takes a line. -/
def feed [Console κ] (fuel : Nat) (s : Session κ) (line : String) : Verdict × Session κ :=
  if s.pending.isEmpty && isQuit line then (.quit, s)
  else
    let entry := s.pending ++ [line]
    match Program.statementsOf entry with
    | .error fault =>
      if fault.atEnd then (.more, ⟨s.machine, entry⟩)
      else (.failed (fault.diagnostic.report entry), ⟨s.machine, []⟩)
    | .ok statements =>
      match Eval.topLevels fuel statements s.machine with
      | .done _ m => (.ran, ⟨m, []⟩)
      | .failed fault m => (.failed (fault.diagnostic.report entry), ⟨m, []⟩)
      | .panicked _ _ console => (.panicked, ⟨{ s.machine with console := console }, []⟩)
      | .outOfFuel => (.stuck, ⟨s.machine, []⟩)

end Session

end Primer
