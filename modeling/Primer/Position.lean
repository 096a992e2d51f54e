/-!
# Positions in a source text

A position names one character of a text that is read line by line. Both coordinates count from
zero; the written form counts from one.
-/

set_option autoImplicit false

namespace Primer

/-- A character of the source: its line, and the number of characters before it on that line. -/
structure Position where
  line : Nat
  column : Nat
deriving DecidableEq, Repr, Inhabited

namespace Position

/-- The first character of the source. -/
def start : Position := ⟨0, 0⟩

/-- The written form, with both coordinates counted from one. -/
def text (p : Position) : String :=
  "line " ++ (p.line + 1).repr ++ ", column " ++ (p.column + 1).repr

end Position

end Primer
