import Primer.Fault

/-!
# Splitting a line into tokens

At each character that is not inside an earlier piece, `piece` says what the longest match is: a
gap, a token, or a failure, and how many further characters it takes. `scanFrom` walks the line
once, one character at a time, and `scan` numbers the lines.
-/

set_option autoImplicit false

namespace Primer.Scanner

/-- What starts at a character. A gap or a token takes `more` characters after the first, and a
failure is reported `offset` characters after it. -/
inductive Piece where
  | gap (more : Nat)
  | token (t : Token) (more : Nat)
  | bad (cause : Cause) (offset : Nat)
deriving DecidableEq, Repr

/-- Characters that only separate tokens. -/
def isGap (c : Char) : Bool :=
  c == ' ' || c == '\t' || c == '\r' || c == '\x0c'

/-- Characters that start a name. -/
def startsName (c : Char) : Bool :=
  c.isAlpha || c == '_'

/-- Characters that continue a name. -/
def continuesName (c : Char) : Bool :=
  startsName c || c.isDigit

/-- Quotation marks: a text ends at the mark it starts with. -/
def isQuote (c : Char) : Bool :=
  c == '"' || c == '\x27'

/-- A number starting with the digit `c`: digits, then possibly a point and further digits. A
second point is a failure at that point. -/
def number (c : Char) (cs : List Char) : Piece :=
  let whole := c :: cs.takeWhile Char.isDigit
  match cs.dropWhile Char.isDigit with
  | '.' :: rest =>
    let fraction := rest.takeWhile Char.isDigit
    let width := whole.length + fraction.length
    match rest.dropWhile Char.isDigit with
    | '.' :: _ => .bad .secondPoint (width + 1)
    | _ =>
      .token (.float (Decimal.ofDigits (whole ++ fraction) (-Int.ofNat fraction.length)).toFloat)
        width
  | _ =>
    match Integer.ofDigits? false whole with
    | some n => .token (.integer n) (whole.length - 1)
    | none => .bad (.integerTooLarge (String.ofList whole)) 0

/-- A text that starts with the quotation mark `quote` and runs to the next such mark. -/
def quotation (quote : Char) (cs : List Char) : Piece :=
  let body := cs.takeWhile (· != quote)
  if body.length < cs.length then .token (.text (String.ofList body)) (body.length + 1)
  else .bad .unclosedText 0

/-- The token that a whole word is: a truth value, a reserved word or a name. -/
def classify (word : String) : Token :=
  if word = booleanText true then .boolean true
  else if word = booleanText false then .boolean false
  else
    match Keyword.ofText? word with
    | some k => .keyword k
    | none => .name word

/-- A mark of two characters if the second fits, else one of a single character. -/
def mark (c : Char) (cs : List Char) : Piece :=
  let followed : Bool := cs.head? == some '='
  let pair (two one : Mark) : Piece :=
    if followed then .token (.mark two) 1 else .token (.mark one) 0
  match c with
  | '+' => .token (.mark .plus) 0
  | '-' => .token (.mark .minus) 0
  | '*' => .token (.mark .star) 0
  | '/' => .token (.mark .slash) 0
  | '^' => .token (.mark .caret) 0
  | '(' => .token (.mark .openParen) 0
  | ')' => .token (.mark .closeParen) 0
  | ',' => .token (.mark .comma) 0
  | '=' => pair .equal .assign
  | '<' => pair .lessEqual .less
  | '>' => pair .greaterEqual .greater
  | '!' => if followed then .token (.mark .notEqual) 1 else .bad .loneBang 0
  | _ => .bad (.unexpectedCharacter c) 0

/-- The longest match at the character `c` with `cs` after it. A comment runs from two slashes to
the next line feed. -/
def piece (c : Char) (cs : List Char) : Piece :=
  if isGap c then .gap 0
  else if c == '/' && cs.head? == some '/' then .gap (cs.takeWhile (· != '\n')).length
  else if c.isDigit then number c cs
  else if isQuote c then quotation c cs
  else if startsName c then
    let tail := cs.takeWhile continuesName
    .token (classify (String.ofList (c :: tail))) tail.length
  else mark c cs

/-- The lexemes from the given column on, after passing `skip` characters that belong to the piece
before. -/
def scanFrom (line : Nat) : Nat → Nat → List Char → Except Fault Row
  | _, _, [] => .ok []
  | column, skip + 1, _ :: cs => scanFrom line (column + 1) skip cs
  | column, 0, c :: cs =>
    match piece c cs with
    | .gap more => scanFrom line (column + 1) more cs
    | .token t more =>
      match scanFrom line (column + 1) more cs with
      | .ok row => .ok (⟨t, line, column⟩ :: row)
      | .error fault => .error fault
    | .bad cause offset => .error ⟨cause, line, column + offset⟩

/-- The lexemes of one line, whose positions name it by the given number. -/
def scanLine (line : Nat) (s : String) : Except Fault Row :=
  scanFrom line 0 0 s.toList

/-- The lexemes of consecutive lines, numbered from the given one; the first failure wins. -/
def scanLines : Nat → List String → Except Fault (List Row)
  | _, [] => .ok []
  | line, s :: rest =>
    match scanLine line s with
    | .error fault => .error fault
    | .ok row =>
      match scanLines (line + 1) rest with
      | .error fault => .error fault
      | .ok rows => .ok (row :: rows)

/-- The lexemes of all lines of a source. -/
def scan (lines : List String) : Except Fault (List Row) :=
  scanLines 0 lines

end Primer.Scanner
