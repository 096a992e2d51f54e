import Primer.Position
import Primer.Numeric.Integer
import Primer.Decimal.Layout

/-!
# Tokens

The words and marks that a line of source is made of. Reserved words and marks are finite types
whose spelling is one function each, so the scanner and the messages share it.
-/

set_option autoImplicit false

namespace Primer

/-- A reserved word. -/
inductive Keyword where
  | kwIf | kwThen | kwElseif | kwElse | kwEndif
  | kwWhile | kwEndwhile | kwDo | kwUntil
  | kwFor | kwTo | kwStep | kwNext
  | kwProcedure | kwEndprocedure | kwFunction | kwEndfunction | kwReturn
  | kwConst | kwGlobal
  | kwAnd | kwOr | kwNot | kwMod | kwDiv
deriving DecidableEq, Repr

namespace Keyword

/-- All reserved words. -/
def all : List Keyword :=
  [kwIf, kwThen, kwElseif, kwElse, kwEndif, kwWhile, kwEndwhile, kwDo, kwUntil, kwFor, kwTo, kwStep,
    kwNext, kwProcedure, kwEndprocedure, kwFunction, kwEndfunction, kwReturn, kwConst, kwGlobal,
    kwAnd, kwOr, kwNot, kwMod, kwDiv]

/-- The spelling. -/
def text : Keyword → String
  | kwIf => "if"
  | kwThen => "then"
  | kwElseif => "elseif"
  | kwElse => "else"
  | kwEndif => "endif"
  | kwWhile => "while"
  | kwEndwhile => "endwhile"
  | kwDo => "do"
  | kwUntil => "until"
  | kwFor => "for"
  | kwTo => "to"
  | kwStep => "step"
  | kwNext => "next"
  | kwProcedure => "procedure"
  | kwEndprocedure => "endprocedure"
  | kwFunction => "function"
  | kwEndfunction => "endfunction"
  | kwReturn => "return"
  | kwConst => "const"
  | kwGlobal => "global"
  | kwAnd => "AND"
  | kwOr => "OR"
  | kwNot => "NOT"
  | kwMod => "MOD"
  | kwDiv => "DIV"

/-- The reserved word with this spelling. -/
def ofText? (s : String) : Option Keyword :=
  all.find? fun k => k.text == s

/-- Whether the word continues or closes a construct, so that no statement starts with it. -/
def isBlock : Keyword → Bool
  | kwElseif | kwElse | kwEndif | kwEndwhile | kwUntil | kwNext | kwEndprocedure | kwEndfunction
  | kwThen | kwTo | kwStep => true
  | _ => false

/-- Whether the word is an operator between two operands. -/
def isBinary : Keyword → Bool
  | kwAnd | kwOr | kwMod | kwDiv => true
  | _ => false

end Keyword

/-- A mark of one or two characters. -/
inductive Mark where
  | plus | minus | star | slash | caret
  | openParen | closeParen | comma | assign
  | equal | notEqual | less | lessEqual | greater | greaterEqual
deriving DecidableEq, Repr

namespace Mark

/-- The spelling. -/
def text : Mark → String
  | plus => "+"
  | minus => "-"
  | star => "*"
  | slash => "/"
  | caret => "^"
  | openParen => "("
  | closeParen => ")"
  | comma => ","
  | assign => "="
  | equal => "=="
  | notEqual => "!="
  | less => "<"
  | lessEqual => "<="
  | greater => ">"
  | greaterEqual => ">="

/-- Whether the mark can only stand between two operands. Plus and minus are also signs. -/
def isBinary : Mark → Bool
  | star | slash | caret | assign | equal | notEqual | less | lessEqual | greater | greaterEqual =>
    true
  | _ => false

end Mark

/-- A token: a literal, a name, a reserved word or a mark. -/
inductive Token where
  | integer (n : Int64)
  | float (x : Float)
  | boolean (b : Bool)
  | text (s : String)
  | name (s : String)
  | keyword (k : Keyword)
  | mark (m : Mark)
deriving DecidableEq, Repr

/-- The spelling of a truth value. -/
def booleanText : Bool → String
  | true => "True"
  | false => "False"

namespace Token

/-- The spelling that messages quote: texts stand between double quotes, and doubles use the
compact layout. -/
def spelling : Token → String
  | integer n => Integer.text n
  | float x => Layout.compact.write x
  | boolean b => booleanText b
  | text s => "\"" ++ s ++ "\""
  | name s => s
  | keyword k => k.text
  | mark m => m.text

/-- Whether the token is a word that continues or closes a construct. -/
def isBlock : Token → Bool
  | keyword k => k.isBlock
  | _ => false

/-- Whether the token can only stand between two operands. -/
def isBinary : Token → Bool
  | keyword k => k.isBinary
  | mark m => m.isBinary
  | _ => false

end Token

/-- A token and the position of its first character. -/
structure Lexeme where
  token : Token
  position : Position
deriving DecidableEq, Repr

/-- The lexemes of one line. -/
abbrev Row : Type := List Lexeme

end Primer
