import Primer.Environment
import Primer.Shell.Arguments
import Primer.Shell.Generator
import Primer.Text.Cluster
import Primer.Text.Lines

/-!
# The environment of the executable

Lines of a session are taken from the standard input, which is no terminal, with the backspaces in
them applied. Nothing is logged.
-/

set_option autoImplicit false

namespace Primer.Shell

open CommandLine

/-- The text of a line without its ending, given the characters through the line feed: the line
feed and one carriage return before it. -/
def withoutEnding (cs : List Char) : List Char :=
  match cs.reverse with
  | '\n' :: rest => Text.dropReturn rest.reverse
  | _ => cs

/-- The line that a session is given for a line of the input: its ending dropped and its backspaces
applied. -/
def typedLine? (text : String) : Option String :=
  (Text.applyBackspaces? (withoutEnding text.toList)).map String.ofList

/-- Takes a line of the input. -/
def edit : Editor := fun _ _ stream =>
  match stream.input with
  | [] => (.ended, stream)
  | bytes =>
    let (line, rest) := Stream.splitLine bytes
    let after : Stream := ⟨stream.shown, rest⟩
    match Stream.decode? line with
    | none => (.failed Stream.invalidText, after)
    | some text =>
      match typedLine? text with
      | none => (.panicked, after)
      | some typed => (.line typed, after)

/-- The environment with the given files, and with a generator that starts from a seed. -/
def environment (seed : UInt64) (files : String → FileRead) : Environment where
  arguments := readArguments
  files := files
  log := .silent
  editor := .ok edit
  draws := ⟨words, seed.toNat⟩
  panicReport := "thread 'main' panicked\n"

end Primer.Shell
