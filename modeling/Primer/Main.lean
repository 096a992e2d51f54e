import Primer.CommandLine
import Primer.Shell

/-!
# The executable

Reads the arguments, the files and the standard input, and writes what the run left behind.
-/

set_option autoImplicit false

namespace Primer.Main

open CommandLine

/-- Reads a file. -/
def readFile (path : String) : IO FileRead := do
  try
    let bytes ← IO.FS.readBinFile path
    pure (.content bytes.toList)
  catch e =>
    match e with
    | .noFileOrDirectory _ _ _ => pure .missing
    | .inappropriateType _ 20 _ => pure .notDirectory
    | .inappropriateType _ _ _ => pure .directory
    | .invalidArgument _ 36 _ => pure .nameTooLong
    | other => pure (.failed (toString other))

/-- Whether the text of a script can make it read the input: it does so only by naming the
subroutine that takes a line. -/
def namesInput (text : String) : Bool :=
  match Scanner.scan (Text.lines text) with
  | .ok rows => rows.any fun row => row.any fun x => x.token == .name Native.input.name
  | .error _ => false

/-- Whether a run with these options can make use of the input, given what reading its file gave. -/
def usesInput (file : FileRead) : Options → Bool
  | ⟨_, _, none⟩ => true
  | ⟨false, _, some text⟩ => namesInput text
  | ⟨true, _, some _⟩ =>
    match file.text with
    | .ok text => namesInput text
    | .error _ => false

/-- A fresh seed for the generator. -/
def freshSeed : IO UInt64 := do
  let bytes ← IO.getRandomBytes 8
  pure (bytes.toList.foldl (fun w b => w * 256 + b.toUInt64) 0)

/-- The fuel of a run, more than any run can use up. -/
def fuel : Nat := 1000000000000000000

end Primer.Main

open Primer.Main in
/-- Runs the command line. -/
def main (arguments : List String) : IO UInt32 := do
  let options := Primer.Shell.readArguments arguments
  let file ←
    match options with
    | .ok ⟨true, _, some path⟩ => readFile path
    | _ => pure .missing
  let reads :=
    match options with
    | .ok options => usesInput file options
    | .error _ => false
  let input ← if reads then (← IO.getStdin).readBinToEnd else pure ByteArray.empty
  let env := Primer.Shell.environment (← freshSeed) fun _ => file
  match Primer.CommandLine.run fuel env input.toList arguments with
  | some ending =>
    (← IO.getStdout).putStr ending.stdout
    (← IO.getStderr).putStr ending.stderr
    pure ending.exit.toUInt32
  | none => pure 1
