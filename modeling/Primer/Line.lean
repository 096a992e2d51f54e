import Primer.Fault

/-!
# Reading one row of lexemes

Expressions and headers never reach beyond their row, so they are read from a `Line`: what is left
of the row, how much was taken, and where the last lexeme stood. A failing reader leaves the line
where it stopped.
-/

set_option autoImplicit false

namespace Primer

/-- The unread rest of a row, the number of lexemes taken from it, and the position of the last
lexeme taken from any row. -/
structure Line where
  rest : Row
  taken : Nat
  previous : Position
deriving DecidableEq, Repr

/-- A reader of a row. -/
abbrev LineReader (α : Type) : Type := EStateM Fault Line α

namespace LineReader

/-- The next token, which stays unread. -/
@[inline]
def peek : LineReader (Option Token) := fun l =>
  .ok (l.rest.head?.map Lexeme.token) l

/-- Whether the next token is the given one. -/
@[inline]
def check (t : Token) : LineReader Bool := fun l =>
  .ok (l.rest.head?.map Lexeme.token == some t) l

/-- Whether the row is used up. -/
@[inline]
def atEnd : LineReader Bool := fun l =>
  .ok l.rest.isEmpty l

/-- Takes the next lexeme, if there is one. -/
def advance : LineReader (Option Lexeme) := fun l =>
  match l.rest with
  | [] => .ok none l
  | x :: xs => .ok (some x) ⟨xs, l.taken + 1, x.position⟩

/-- Takes the next lexeme and gives its position; at the end of the row, the previous one. -/
def advancePosition : LineReader Position := fun l =>
  match l.rest with
  | [] => .ok l.previous l
  | x :: xs => .ok x.position ⟨xs, l.taken + 1, x.position⟩

/-- Fails with the given cause at the last lexeme taken. -/
def failAtPrevious {α : Type} (cause : Cause) : LineReader α := fun l =>
  .error ⟨cause, l.previous⟩ l

/-- Fails if the row is used up. -/
def requireMore : LineReader Unit := fun l =>
  match l.rest with
  | [] => .error ⟨.incomplete, l.previous⟩ l
  | _ :: _ => .ok () l

/-- Takes the given token, or fails naming what was asked for; another token stays unread. -/
def expect (t : Token) (what : Expectation) : LineReader Position := fun l =>
  match l.rest with
  | [] => .error ⟨.expected what none, l.previous⟩ l
  | x :: xs =>
    if x.token = t then .ok x.position ⟨xs, l.taken + 1, x.position⟩
    else .error ⟨.expected what (some x.token), x.position⟩ l

/-- Takes a name and gives it with its position; another token is taken too before failing. -/
def name (what : Expectation) : LineReader (String × Position) := fun l =>
  match l.rest with
  | [] => .error ⟨.expected what none, l.previous⟩ l
  | x :: xs =>
    let after : Line := ⟨xs, l.taken + 1, x.position⟩
    match x.token with
    | .name s => .ok (s, x.position) after
    | t => .error ⟨.expected what (some t), x.position⟩ after

/-- Items separated by commas up to the closing parenthesis, at least one. The bound is on the
number of items. -/
def items {α : Type} (item : LineReader α) (opened : Position) : Nat → LineReader (List α)
  | 0 => failAtPrevious .incomplete
  | n + 1 => do
    if ← atEnd then throw ⟨.expected .closeParen none, opened⟩
    let x ← item
    match ← advance with
    | none => throw ⟨.expected .closeParen none, opened⟩
    | some ⟨.mark .closeParen, _⟩ => pure [x]
    | some ⟨.mark .comma, comma⟩ =>
      if (← atEnd) || (← check (.mark .closeParen)) then throw ⟨.expected .item none, comma⟩
      let xs ← items item opened n
      pure (x :: xs)
    | some ⟨t, pos⟩ => throw ⟨.expected .separator (some t), pos⟩

/-- Items after an opening parenthesis, separated by commas; there may be none. -/
def parenthesised {α : Type} (item : LineReader α) (opened : Position) (bound : Nat) :
    LineReader (List α) := do
  if ← check (.mark .closeParen) then
    let _ ← advance
    pure []
  else items item opened bound

end LineReader

end Primer
