/-!
# Consoles

A console takes lines to show and gives lines that were typed in. Either can fail with a text that
says why. `Buffer` keeps everything in memory.
-/

set_option autoImplicit false

namespace Primer

/-- What a program talks to. Both operations give the console after them, and say why they failed
if they did; reading shows a prompt first. -/
class Console (κ : Type) where
  writeLine : κ → String → Except String Unit × κ
  readLine : κ → String → Except String String × κ

/-- A console in memory: the lines written, the prompts shown, the lines still to be read, and, if
writes are limited, how many more succeed. -/
structure Buffer where
  written : Array String
  prompts : Array String
  input : List String
  writesLeft : Option Nat
deriving DecidableEq, Repr

namespace Buffer

/-- A console that has these lines to be read, and takes the given number of lines. -/
def withInput (input : List String) (writesLeft : Option Nat) : Buffer :=
  ⟨#[], #[], input, writesLeft⟩

/-- Records a line, unless the limit is used up. -/
def writeLine (b : Buffer) (s : String) : Except String Unit × Buffer :=
  match b with
  | ⟨written, prompts, input, none⟩ => (.ok (), ⟨written.push s, prompts, input, none⟩)
  | ⟨written, prompts, input, some 0⟩ => (.error "write failed", ⟨written, prompts, input, some 0⟩)
  | ⟨written, prompts, input, some (n + 1)⟩ => (.ok (), ⟨written.push s, prompts, input, some n⟩)

/-- Records the prompt and takes the next line. -/
def readLine (b : Buffer) (prompt : String) : Except String String × Buffer :=
  match b with
  | ⟨written, prompts, [], left⟩ =>
    (.error "no more input", ⟨written, prompts.push prompt, [], left⟩)
  | ⟨written, prompts, s :: rest, left⟩ => (.ok s, ⟨written, prompts.push prompt, rest, left⟩)

instance : Console Buffer where
  writeLine := writeLine
  readLine := readLine

end Buffer

end Primer
