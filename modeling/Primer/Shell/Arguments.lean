import Primer.Environment

/-!
# Reading arguments

Flags are letters after a dash, which may be bundled, or words after two. One argument that is no
flag is the program text or its path.
-/

set_option autoImplicit false

namespace Primer.Shell

open CommandLine

/-- An option that takes no value. -/
inductive Flag where
  | file | echo | version | help
deriving DecidableEq, Repr

/-- The flag of a letter. -/
def Flag.ofLetter? : Char → Option Flag
  | 'f' => some .file
  | 'e' => some .echo
  | 'V' => some .version
  | 'h' => some .help
  | _ => none

/-- The flag of a word. -/
def Flag.ofWord? (word : String) : Option Flag :=
  if word = "--file" then some .file
  else if word = "--echo" then some .echo
  else if word = "--version" then some .version
  else if word = "--help" then some .help
  else none

/-- What is written about the version. -/
def version : Ending := ⟨"erl 0.1.0\n", "", 0⟩

/-- What is written about the arguments that there are. -/
def help : Ending :=
  ⟨"Usage: erl [OPTIONS] [CONTENTS]\n\nArguments:\n  [CONTENTS]\n\nOptions:\n" ++
    "  -f, --file     Tells erl to read CONTENTS as a file path instead of program text\n" ++
    "  -e, --echo     Echo the value of every top-level expression statement\n" ++
    "  -h, --help     Print help\n  -V, --version  Print version\n", "", 0⟩

/-- What is written about an argument that is not understood. -/
def usage (argument : String) : Ending :=
  ⟨"", "error: unexpected argument '" ++ argument ++
    "' found\n\nUsage: erl [OPTIONS] [CONTENTS]\n\nFor more information, try '--help'.\n", 2⟩

/-- Sets a flag. Asking for the version or for help ends the reading of arguments, and a flag may be
set only once. -/
def setFlag (o : Options) (argument : String) : Flag → Except Ending Options
  | .version => .error version
  | .help => .error help
  | .file => if o.file then .error (usage argument) else .ok { o with file := true }
  | .echo => if o.echo then .error (usage argument) else .ok { o with echo := true }

/-- Sets the flags of a bundle of letters. -/
def setLetters (argument : String) : List Char → Options → Except Ending Options
  | [], o => .ok o
  | c :: cs, o => do
    match Flag.ofLetter? c with
    | none => .error (usage argument)
    | some flag => setLetters argument cs (← setFlag o argument flag)

/-- Sets the program text, which may be given only once. -/
def setContents (o : Options) (argument : String) : Except Ending Options :=
  if o.contents.isSome then .error (usage argument) else .ok { o with contents := some argument }

/-- Reads arguments; after `--` no argument is a flag. -/
def readArgumentsFrom : Bool → List String → Options → Except Ending Options
  | _, [], o => .ok o
  | true, argument :: rest, o => do
    readArgumentsFrom true rest (← setContents o argument)
  | false, argument :: rest, o => do
    match argument.toList with
    | ['-', '-'] => readArgumentsFrom true rest o
    | '-' :: '-' :: _ =>
      match Flag.ofWord? argument with
      | some flag => readArgumentsFrom false rest (← setFlag o argument flag)
      | none => .error (usage argument)
    | '-' :: c :: cs => readArgumentsFrom false rest (← setLetters argument (c :: cs) o)
    | _ => readArgumentsFrom false rest (← setContents o argument)

/-- Reads arguments. -/
def readArguments (arguments : List String) : Except Ending Options :=
  readArgumentsFrom false arguments ⟨false, false, none⟩

end Primer.Shell
