import Primer.Environment
import Primer.Session
import Primer.Text.Lines

/-!
# The command line

The program text is an argument, or with `--file` the content of a file. It is run as a script.
Without either, lines of the standard input are fed to a session. What is written to the two
output streams and the exit status are a function of the environment, the arguments and the input.
-/

set_option autoImplicit false

namespace Primer.CommandLine

/-- The exit status after a panic. -/
def panicExit : Nat := 101

/-- Runs a script. -/
def script (fuel : Nat) (env : Environment) (echo : Bool) (input : List UInt8) (text : String) :
    Option Ending :=
  let source := Text.lines text
  let logged := env.log.written 0
  match Eval.lines fuel source (Machine.start (⟨"", input⟩ : Stream) echo env.draws) with
  | .done _ m => some ⟨m.console.shown, logged, 0⟩
  | .failed fault m =>
    some ⟨m.console.shown, logged ++ (fault.diagnostic.report source ++ "\n"), 1⟩
  | .panicked _ _ console => some ⟨console.shown, logged ++ env.panicReport, panicExit⟩
  | .outOfFuel => none

/-- Feeds lines to a session until the editor has no more or the session ends. The first bound is
on the number of requests for a line; `count` says how many lines were fed, `recent` holds those
that are not blank, the last one first, and `errors` is what was written to the standard error. -/
def converse (fuel : Nat) (env : Environment) (edit : Editor) :
    Nat → Nat → List String → Session Stream → String → Option Ending
  | 0, _, _, _, _ => none
  | n + 1, count, recent, s, errors =>
    let (edited, stream) := edit recent s.prompt s.machine.console
    let waiting : Session Stream := { s with machine := { s.machine with console := stream } }
    match edited with
    | .interrupted => converse fuel env edit n count recent waiting.discard errors
    | .ended => some ⟨stream.shown, errors, 0⟩
    | .failed problem => some ⟨stream.shown, errors ++ "Terminal error: " ++ problem ++ "\n", 1⟩
    | .panicked => some ⟨stream.shown, errors ++ env.panicReport, panicExit⟩
    | .line text =>
      let recent := if (Text.trim text.toList).isEmpty then recent else text :: recent
      let logged := errors ++ env.log.written count
      match waiting.feed fuel text with
      | (.quit, s') => some ⟨s'.machine.console.shown, logged, 0⟩
      | (.failed report, s') =>
        converse fuel env edit n (count + 1) recent s' (logged ++ report ++ "\n")
      | (.more, s') | (.ran, s') => converse fuel env edit n (count + 1) recent s' logged
      | (.panicked, s') =>
        some ⟨s'.machine.console.shown, logged ++ env.panicReport, panicExit⟩
      | (.stuck, _) => none

/-- Runs a session over the input. -/
def interactive (fuel : Nat) (env : Environment) (input : List UInt8) : Option Ending :=
  match env.editor with
  | .error problem => some ⟨"", "Terminal error: " ++ problem ++ "\n", 1⟩
  | .ok edit => converse fuel env edit fuel 0 [] (Session.start ⟨"", input⟩ env.draws) ""

/-- The whole program; there is no ending if the fuel runs out. -/
def run (fuel : Nat) (env : Environment) (input : List UInt8) (arguments : List String) :
    Option Ending :=
  match env.arguments arguments with
  | .error ending => some ending
  | .ok ⟨_, _, none⟩ => interactive fuel env input
  | .ok ⟨false, echo, some text⟩ => script fuel env echo input text
  | .ok ⟨true, echo, some path⟩ =>
    match (env.files path).text with
    | .ok text => script fuel env echo input text
    | .error problem =>
      some ⟨"", "Failed to read the input file '" ++ path ++ "': " ++ problem ++ "\n", 1⟩

end Primer.CommandLine
