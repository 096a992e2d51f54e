import Primer.Fault
import Primer.Stmt

/-!
# Values

What expressions evaluate to. Subroutines are values: those that the language provides, and those
that a program defines.
-/

set_option autoImplicit false

namespace Primer

/-- A subroutine that a program defines. -/
structure Subroutine where
  kind : SubroutineKind
  name : String
  params : List String
  body : List Stmt
deriving Repr

/-- A subroutine that the language provides. -/
inductive Native where
  | print | input | random | str | int | float | bool | asc | chr
deriving DecidableEq, Repr

namespace Native

/-- All subroutines that the language provides. -/
def all : List Native := [print, input, random, str, int, float, bool, asc, chr]

/-- The name that programs call it by. -/
def name : Native → String
  | print => "print"
  | input => "input"
  | random => "random"
  | str => "str"
  | int => "int"
  | float => "float"
  | bool => "bool"
  | asc => "asc"
  | chr => "chr"

/-- The provided subroutine of a name. -/
def ofName? (id : String) : Option Native :=
  all.find? fun n => n.name == id

end Native

/-- What can be called. -/
inductive Callable where
  | user (s : Subroutine)
  | native (n : Native)
deriving Repr

/-- The written form. -/
def Callable.text : Callable → String
  | .user s => "<" ++ s.kind.opener.text ++ " " ++ s.name ++ ">"
  | .native n => "<native " ++ n.name ++ ">"

/-- A value. -/
inductive Value where
  | integer (n : Int64)
  | float (x : Float)
  | boolean (b : Bool)
  | text (s : String)
  | callable (c : Callable)
deriving Repr

namespace Value

/-- The value that a literal stands for. -/
def ofLiteral : Literal → Value
  | .integer n => integer n
  | .float x => float x
  | .boolean b => boolean b
  | .text s => text s

/-- The kind of a value. -/
def kind : Value → Kind
  | integer _ => .integer
  | float _ => .float
  | boolean _ => .boolean
  | text _ => .text
  | callable _ => .subroutine

/-- The written form, which printing shows: doubles use the positional layout, texts stand
for themselves. -/
def shown : Value → String
  | integer n => Integer.text n
  | float x => Layout.positional.write x
  | boolean b => booleanText b
  | text s => s
  | callable c => c.text

/-- Whether the value is a number. -/
def isNumeric (v : Value) : Bool := v.kind.isNumeric

/-- A number as a double. -/
def toFloat? : Value → Option Float
  | integer n => some (Integer.toFloat n)
  | float x => some x
  | _ => none

/-- The truth value, or a fault that names what was asked to be one. -/
def toBoolean (v : Value) (subject : String) (pos : Position) : Except Fault Bool :=
  match v with
  | boolean b => .ok b
  | other => .error ⟨.wrongKind subject .boolean other.kind, pos⟩

/-- The integer, or a fault that names what was asked to be one. -/
def toInteger (v : Value) (subject : String) (pos : Position) : Except Fault Int64 :=
  match v with
  | integer n => .ok n
  | other => .error ⟨.wrongKind subject .integer other.kind, pos⟩

end Value

end Primer
