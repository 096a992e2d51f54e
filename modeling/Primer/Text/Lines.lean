/-!
# Lines of a text

A line feed ends a line, and one carriage return directly before it belongs to the ending. What
follows the last line feed is a line only if it is not empty.
-/

set_option autoImplicit false

namespace Primer.Text

/-- Removes one carriage return from the end. -/
def dropReturn (cs : List Char) : List Char :=
  match cs.reverse with
  | '\r' :: rest => rest.reverse
  | _ => cs

/-- The lines of the text that continues the current line, whose characters so far are given in
reverse order. -/
def linesFrom : List Char → List Char → List String
  | [], [] => []
  | current, [] => [String.ofList current.reverse]
  | current, '\n' :: cs => String.ofList (dropReturn current.reverse) :: linesFrom [] cs
  | current, c :: cs => linesFrom (c :: current) cs

/-- The lines of a text. -/
def lines (s : String) : List String :=
  linesFrom [] s.toList

end Primer.Text
