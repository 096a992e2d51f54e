import Primer.Block
import Primer.Diagnostic
import Primer.Kind
import Primer.Operator

/-!
# Faults

Everything that can go wrong while a program is read or run, as data. `Cause.family` and
`Cause.message` are the only places where a cause becomes words.
-/

set_option autoImplicit false

namespace Primer

/-- What the grammar asks for at some place of a line. -/
inductive Expectation where
  | variableName
  | loopVariable
  | loopVariableAfterNext
  | subroutineName
  | parameterName
  | assignSign
  | loopAssignSign
  | thenWord
  | toWord
  | parameterList
  | closeParen
  | separator
  | item
  | assignedValue
  | untilCondition
  | terminator (k : Keyword)
deriving DecidableEq, Repr

/-- The words for what is asked. -/
def Expectation.text : Expectation → String
  | .variableName => "a variable name"
  | .loopVariable => "a loop variable"
  | .loopVariableAfterNext => "the loop variable after 'next'"
  | .subroutineName => "a subroutine name"
  | .parameterName => "a parameter name"
  | .assignSign => "'=' in assignment"
  | .loopAssignSign => "'=' after the loop variable"
  | .thenWord => "'then' after the condition"
  | .toWord => "'to' in 'for' header"
  | .parameterList => "'(' after the subroutine name"
  | .closeParen => "')' to close '('"
  | .separator => "',' or ')'"
  | .item => "an item after ','"
  | .assignedValue => "a value after '='"
  | .untilCondition => "a condition after 'until'"
  | .terminator k => "'" ++ k.text ++ "'"

/-- What went wrong. -/
inductive Cause where
  -- while a line is split into tokens
  | unexpectedCharacter (c : Char)
  | loneBang
  | secondPoint
  | integerTooLarge (digits : String)
  | unclosedText
  -- while tokens are parsed
  | incomplete
  | unexpectedToken (t : Token)
  | expected (what : Expectation) (found : Option Token)
  | unclosedBlock (block : Block) (line : Nat)
  | strayKeyword (k : Keyword)
  | badStart (t : Token)
  | repeatedQualifier (k : Keyword)
  | returnOutside
  | returnFromProcedure
  | nestedSubroutine
  | duplicateParameter (name : String)
  | afterElse (k : Keyword)
  | wrongNext (counter found : String)
  -- about identifiers
  | undeclared (name : String)
  | reassigned (name : String)
  -- about kinds of values
  | wrongKind (subject : String) (wanted found : Kind)
  | notNumeric (op : UnaryOp) (found : Kind)
  | unsupportedOperands (op : BinaryOp) (left right : Kind)
  | unorderedBooleans (c : Comparison)
  | incomparable (c : Comparison) (left right : Kind)
  | notCallable (found : Kind) (shown : String)
  | wrongArgument (name wanted : String) (found : Kind)
  -- while a program runs
  | divisionByZero
  | moduloByZero
  | overflow (op : BinaryOp) (left right : Int64)
  | negationOverflow (n : Int64)
  | noRealPower (base exponent : String)
  | wrongArity (name : String) (least most found : Nat)
  | callDepth (limit : Nat)
  | noReturnedValue (name : Option String)
  | noValue
  | statementAsValue
  | zeroStep
  | unreachableBound (first last step : Int64)
  | inconvertible (shown : String) (target : Kind)
  | notSingleCharacter (found : Nat)
  | badCharacterCode (code : Int64)
  | emptyRange (least most : String)
  | console (text : String)
deriving DecidableEq, Repr

namespace Cause

/-- The family of a cause. Only a block that the input ends in can be mended by more input. -/
def family : Cause → Family
  | unexpectedCharacter _ | loneBang | secondPoint | integerTooLarge _ | unclosedText => .lexical
  | unclosedBlock _ _ => .grammar true
  | incomplete | unexpectedToken _ | expected _ _ | strayKeyword _ | badStart _
  | repeatedQualifier _ | returnOutside | returnFromProcedure | nestedSubroutine
  | duplicateParameter _ | afterElse _ | wrongNext _ _ => .grammar false
  | undeclared name | reassigned name => .identifier name
  | wrongKind _ _ _ | notNumeric _ _ | unsupportedOperands _ _ _ | unorderedBooleans _
  | incomparable _ _ _ | notCallable _ _ | wrongArgument _ _ _ => .typing
  | divisionByZero | moduloByZero | overflow _ _ _ | negationOverflow _ | noRealPower _ _
  | wrongArity _ _ _ _ | callDepth _ | noReturnedValue _ | noValue | statementAsValue | zeroStep
  | unreachableBound _ _ _ | inconvertible _ _ | notSingleCharacter _ | badCharacterCode _
  | emptyRange _ _ | console _ => .evaluation

/-- The word that should have come before a word that continues or closes a construct. -/
def openerOf : Keyword → Option Keyword
  | .kwElseif | .kwElse | .kwEndif => some .kwIf
  | .kwEndwhile => some .kwWhile
  | .kwUntil => some .kwDo
  | .kwNext => some .kwFor
  | .kwEndprocedure => some .kwProcedure
  | .kwEndfunction => some .kwFunction
  | _ => none

/-- Single quotes around a text. -/
def quoted (s : String) : String := "'" ++ s ++ "'"

/-- The message of a cause. -/
def message : Cause → String
  | unexpectedCharacter c => "Unexpected character " ++ quoted (String.ofList [c])
  | loneBang => "Expected '=' after '!'"
  | secondPoint => "Unexpected character '.' in number"
  | integerTooLarge digits => "Integer literal " ++ digits ++ " is too large"
  | unclosedText => "Unterminated string literal"
  | incomplete => "Incomplete input"
  | unexpectedToken t => "Unexpected token " ++ quoted t.spelling
  | expected what none => "Expected " ++ what.text
  | expected what (some t) => "Expected " ++ what.text ++ ", found " ++ quoted t.spelling
  | unclosedBlock block line =>
    "Expected " ++ quoted block.closing ++ " to close " ++ quoted block.opener.text ++
      " on line " ++ (line + 1).repr
  | strayKeyword k =>
    match openerOf k with
    | some opener => quoted k.text ++ " without a matching " ++ quoted opener.text
    | none => "A statement cannot start with " ++ quoted k.text
  | badStart t => "A statement cannot start with " ++ quoted t.spelling
  | repeatedQualifier k => "Repeated qualifier " ++ quoted k.text
  | returnOutside => "'return' outside of a subroutine"
  | returnFromProcedure => "A procedure cannot return a value"
  | nestedSubroutine => "Subroutines cannot be defined inside another subroutine"
  | duplicateParameter name => "Duplicate parameter " ++ quoted name
  | afterElse k => quoted k.text ++ " cannot follow 'else'"
  | wrongNext counter found =>
    "Expected " ++ quoted ("next " ++ counter) ++ ", found " ++ quoted ("next " ++ found)
  | undeclared name => quoted name ++ " has not been declared"
  | reassigned name => "Cannot reassign constant " ++ quoted name
  | wrongKind subject wanted found =>
    subject ++ " must be " ++ wanted.title ++ ", found " ++ found.title
  | notNumeric op found =>
    "Operand of " ++ quoted op.text ++ " must be numeric, found " ++ found.title
  | unsupportedOperands op left right =>
    "Unsupported operand types for " ++ quoted op.text ++ ": " ++ left.title ++ " and " ++
      right.title
  | unorderedBooleans c => "Booleans cannot be compared with " ++ quoted c.text
  | incomparable c left right =>
    "Cannot compare " ++ left.title ++ " with " ++ right.title ++ " using " ++ quoted c.text
  | notCallable found shown => found.title ++ " value " ++ quoted shown ++ " is not callable"
  | wrongArgument name wanted found =>
    quoted name ++ " expects " ++ wanted ++ ", found " ++ found.title
  | divisionByZero => "Division by zero"
  | moduloByZero => "Modulo by zero"
  | overflow op left right =>
    "Integer overflow in " ++
      quoted (Integer.text left ++ " " ++ op.text ++ " " ++ Integer.text right)
  | negationOverflow n => "Integer overflow in " ++ quoted ("-" ++ Integer.text n)
  | noRealPower base exponent => quoted (base ++ " ^ " ++ exponent) ++ " has no real result"
  | wrongArity name least most found =>
    quoted name ++ " expects " ++
      (if least = most then least.repr else least.repr ++ " to " ++ most.repr) ++
      " argument(s), found " ++ found.repr
  | callDepth limit => "Call stack exceeded: more than " ++ limit.repr ++ " nested calls"
  | noReturnedValue (some name) => quoted name ++ " did not return a value"
  | noReturnedValue none => "Subroutine call did not return a value"
  | noValue => "Expression did not produce a value"
  | statementAsValue => "A statement cannot be used as a value"
  | zeroStep => "'for' step cannot be zero"
  | unreachableBound first last step =>
    "'for' loop from " ++ Integer.text first ++ " to " ++ Integer.text last ++
      " cannot be reached with step " ++ Integer.text step
  | inconvertible shown target => "Cannot convert " ++ shown ++ " to " ++ target.title
  | notSingleCharacter found =>
    "'asc' expects a single character, found " ++ found.repr ++ " characters"
  | badCharacterCode code => Integer.text code ++ " is not a valid character code"
  | emptyRange least most => "'random' cannot draw from " ++ least ++ " to " ++ most
  | console text => "Console error: " ++ text

end Cause

/-- A cause and the position it is reported at. -/
structure Fault where
  cause : Cause
  position : Position
deriving DecidableEq, Repr

namespace Fault

/-- The fault as it is shown. -/
def diagnostic (f : Fault) : Diagnostic :=
  ⟨f.cause.family, f.cause.message, f.position⟩

/-- Whether more input could mend the fault. -/
def atEnd (f : Fault) : Bool := f.diagnostic.atEnd

end Fault

end Primer
