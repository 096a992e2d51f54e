import Primer.Position

/-!
# Diagnostics

What a user reads about a failure: its family, a message and a position, and below them the
offending source line with a caret under the character.
-/

set_option autoImplicit false

namespace Primer

/-- The family of a failure. A failure of the grammar may be due to the end of the input alone, and
a failure about an identifier carries its name. -/
inductive Family where
  | lexical
  | grammar (atEnd : Bool)
  | identifier (name : String)
  | typing
  | evaluation
deriving DecidableEq, Repr

/-- The word for the family. -/
def Family.title : Family → String
  | .lexical => "Lexical"
  | .grammar _ => "Syntax"
  | .identifier _ => "Identifier"
  | .typing => "Type"
  | .evaluation => "Evaluation"

/-- A failure as it is shown. -/
structure Diagnostic where
  family : Family
  message : String
  position : Position
deriving DecidableEq, Repr

namespace Diagnostic

/-- Whether more input could mend the failure. -/
def atEnd (d : Diagnostic) : Bool :=
  match d.family with
  | .grammar atEnd => atEnd
  | _ => false

/-- The one-line form. -/
def headline (d : Diagnostic) : String :=
  d.family.title ++ " Error: " ++ d.message ++ " (" ++ d.position.text ++ ")"

/-- What stands before the caret: a tab below each tab of the line, and spaces elsewhere. -/
def padding : Nat → List Char → List Char
  | 0, _ => []
  | n + 1, [] => ' ' :: padding n []
  | n + 1, c :: cs => (if c = '\t' then '\t' else ' ') :: padding n cs

/-- A source line with a caret under the column of the failure. -/
def underline (d : Diagnostic) (line : String) : String :=
  line ++ "\n" ++ String.ofList (padding d.position.column line.toList) ++ "^"

/-- The full report: a header, the one-line form and, if the source has the line, that line with
its caret. -/
def report (d : Diagnostic) (lines : List String) : String :=
  " ! ERROR\n" ++ d.headline ++
    match lines[d.position.line]? with
    | some line => "\n" ++ d.underline line
    | none => ""

end Diagnostic

end Primer
