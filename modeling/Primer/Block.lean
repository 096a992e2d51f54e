import Primer.Token

/-!
# Blocks

The constructs that span several lines, with the word that opens each and what closes it.
-/

set_option autoImplicit false

namespace Primer

/-- Whether a subroutine yields a value. -/
inductive SubroutineKind where
  | procedure | function
deriving DecidableEq, Repr

namespace SubroutineKind

/-- The word that opens a definition. -/
def opener : SubroutineKind → Keyword
  | procedure => .kwProcedure
  | function => .kwFunction

/-- The word that closes a definition. -/
def closer : SubroutineKind → Keyword
  | procedure => .kwEndprocedure
  | function => .kwEndfunction

end SubroutineKind

/-- A construct with a body of lines. A counting loop is closed by its own variable. -/
inductive Block where
  | branch
  | whileLoop
  | untilLoop
  | forLoop (counter : String)
  | subroutine (kind : SubroutineKind)
deriving DecidableEq, Repr

namespace Block

/-- The word that opens the block. -/
def opener : Block → Keyword
  | branch => .kwIf
  | whileLoop => .kwWhile
  | untilLoop => .kwDo
  | forLoop _ => .kwFor
  | subroutine kind => kind.opener

/-- The words that may end a body of the block. A body of a branch also ends where the next arm
starts, and a subroutine's body ends at either closing word so that a wrong one can be reported. -/
def terminators : Block → List Keyword
  | branch => [.kwElseif, .kwElse, .kwEndif]
  | whileLoop => [.kwEndwhile]
  | untilLoop => [.kwUntil]
  | forLoop _ => [.kwNext]
  | subroutine _ => [.kwEndprocedure, .kwEndfunction]

/-- What closes the block, as messages quote it. -/
def closing : Block → String
  | branch => Keyword.kwEndif.text
  | whileLoop => Keyword.kwEndwhile.text
  | untilLoop => Keyword.kwUntil.text
  | forLoop counter => Keyword.kwNext.text ++ " " ++ counter
  | subroutine kind => kind.closer.text

end Block

end Primer
