import Primer.Console

/-!
# Consoles on byte streams

Lines are shown by appending to a text and read from a list of bytes. A line of input runs through
its line feed, and its bytes must be the UTF-8 form of a text.
-/

set_option autoImplicit false

namespace Primer

/-- A console on streams: everything shown, and the bytes still to be read. -/
structure Stream where
  shown : String
  input : List UInt8

namespace Stream

/-- The byte of a line feed. -/
def lineFeed : UInt8 := 10

/-- Splits the bytes after the first line feed. -/
def splitLine : List UInt8 → List UInt8 × List UInt8
  | [] => ([], [])
  | b :: bs =>
    if b = lineFeed then ([b], bs)
    else
      let (line, rest) := splitLine bs
      (b :: line, rest)

/-- The text that bytes are the UTF-8 form of. -/
def decode? (bytes : List UInt8) : Option String :=
  String.fromUTF8? (ByteArray.mk bytes.toArray)

/-- What is wrong with bytes that are not the UTF-8 form of a text. -/
def invalidText : String := "stream did not contain valid UTF-8"

/-- Removes all line feeds and carriage returns from the end. -/
def dropLineEnd (cs : List Char) : List Char :=
  (cs.reverse.dropWhile fun c => c == '\n' || c == '\r').reverse

/-- Shows a line. -/
def writeLine (s : Stream) (text : String) : Except String Unit × Stream :=
  match s with
  | ⟨shown, input⟩ => (.ok (), ⟨shown ++ text ++ "\n", input⟩)

/-- Shows the prompt and takes the bytes of a line, which are lost if they are not a text. At the
end of the input the line is empty. -/
def readLine (s : Stream) (prompt : String) : Except String String × Stream :=
  let (line, rest) := splitLine s.input
  let after : Stream := ⟨s.shown ++ prompt, rest⟩
  match decode? line with
  | some text => (.ok (String.ofList (dropLineEnd text.toList)), after)
  | none => (.error invalidText, after)

instance : Console Stream where
  writeLine := writeLine
  readLine := readLine

end Stream

end Primer
