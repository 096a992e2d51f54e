import Primer.Line

/-!
# Reading several rows

A `Cursor` stands somewhere in a list of rows. The head of `rows` is what is left of the current
row, of which `taken` lexemes were read already; a row is blank only if nothing was taken from it.
-/

set_option autoImplicit false

namespace Primer

/-- A place in a list of rows. -/
structure Cursor where
  rows : List Row
  taken : Nat
  previous : Position
deriving DecidableEq, Repr

/-- A reader of rows. -/
abbrev RowReader (α : Type) : Type := EStateM Fault Cursor α

namespace Cursor

/-- The place before the first row. -/
def start (rows : List Row) : Cursor := ⟨rows, 0, Position.start⟩

/-- Moves past blank rows. -/
def skipBlank (c : Cursor) : Cursor :=
  if c.taken = 0 then { c with rows := c.rows.dropWhile List.isEmpty } else c

end Cursor

namespace RowReader

/-- Reads from the current row. -/
@[inline]
def onLine {α : Type} (reader : LineReader α) : RowReader α := fun c =>
  match c.rows with
  | [] =>
    match reader ⟨[], c.taken, c.previous⟩ with
    | .ok a l => .ok a ⟨[], l.taken, l.previous⟩
    | .error e l => .error e ⟨[], l.taken, l.previous⟩
  | row :: later =>
    match reader ⟨row, c.taken, c.previous⟩ with
    | .ok a l => .ok a ⟨l.rest :: later, l.taken, l.previous⟩
    | .error e l => .error e ⟨l.rest :: later, l.taken, l.previous⟩

/-- The next lexeme of the current row, which stays unread. -/
@[inline]
def peekLexeme : RowReader (Option Lexeme) := fun c =>
  match c.rows with
  | (x :: _) :: _ => .ok (some x) c
  | _ => .ok none c

/-- Moves past blank rows and says whether a row is left. -/
def nextRow : RowReader Bool := fun c =>
  let c := c.skipBlank
  .ok (!c.rows.isEmpty) c

/-- Ends the current row, which must be used up. -/
def finishLine : RowReader Unit := fun c =>
  match c.rows with
  | [] => .ok () { c with taken := 0 }
  | [] :: later => .ok () { c with rows := later, taken := 0 }
  | (x :: _) :: _ => .error ⟨.unexpectedToken x.token, x.position⟩ c

end RowReader

end Primer
