import Primer.Text.Blank
import Primer.Value

/-!
# Conversions between kinds

The provided subroutines that turn a value into one of another kind, and the check on the number
of arguments that all subroutines share.
-/

set_option autoImplicit false

namespace Primer

/-- Refuses a number of arguments outside the given bounds. -/
def checkArity (name : String) (least most found : Nat) (pos : Position) : Except Fault Unit :=
  if least ≤ found ∧ found ≤ most then .ok ()
  else .error ⟨.wrongArity name least most found, pos⟩

namespace Native

/-- The only argument. -/
def single (native : Native) (args : List Value) (pos : Position) : Except Fault Value :=
  match args with
  | [v] => .ok v
  | _ => .error ⟨.wrongArity native.name 1 1 args.length, pos⟩

/-- The fault of a value that has no counterpart of the given kind. Texts are quoted. -/
def inconvertible (v : Value) (target : Kind) (pos : Position) : Fault :=
  let shown :=
    match v with
    | .text s => "\"" ++ s ++ "\""
    | other => other.shown
  ⟨.inconvertible shown target, pos⟩

/-- The converted value, or the fault that there is none. -/
def converted (v : Value) (target : Kind) (pos : Position) (result : Option Value) :
    Except Fault Value :=
  match result with
  | some w => .ok w
  | none => .error (inconvertible v target pos)

/-- The fault of a subroutine where a scalar is asked for. -/
def notScalar (native : Native) (v : Value) (pos : Position) : Fault :=
  ⟨.wrongArgument native.name "a scalar value" v.kind, pos⟩

/-- The written form of a value. -/
def toText (args : List Value) (pos : Position) : Except Fault Value := do
  let v ← single .str args pos
  .ok (.text v.shown)

/-- The integer of a value: doubles are truncated, truth values count as one and zero, and texts
are read, with blanks around them ignored. -/
def toInteger (args : List Value) (pos : Position) : Except Fault Value := do
  let v ← single .int args pos
  match v with
  | .integer n => .ok (.integer n)
  | .float x => converted v .integer pos ((Integer.truncate? x).map .integer)
  | .boolean b => .ok (.integer (if b then 1 else 0))
  | .text s => converted v .integer pos ((Integer.read? (Text.trim s.toList)).map .integer)
  | .callable _ => .error (notScalar .int v pos)

/-- The double of a value; a text must stand for a finite one. -/
def toFloat (args : List Value) (pos : Position) : Except Fault Value := do
  let v ← single .float args pos
  match v with
  | .integer n => .ok (.float (Integer.toFloat n))
  | .float x => .ok (.float x)
  | .boolean b => .ok (.float (if b then 1.0 else 0.0))
  | .text s =>
    converted v .float pos
      (((Decimal.read? (Text.trim s.toList)).filter Float.isFinite).map .float)
  | .callable _ => .error (notScalar .float v pos)

/-- The truth value that a text spells. -/
def readBoolean? (cs : List Char) : Option Bool :=
  if cs = (booleanText true).toList then some true
  else if cs = (booleanText false).toList then some false
  else none

/-- The truth value of a value: a number is true unless it is zero. -/
def toBoolean (args : List Value) (pos : Position) : Except Fault Value := do
  let v ← single .bool args pos
  match v with
  | .boolean b => .ok (.boolean b)
  | .integer n => .ok (.boolean (n != 0))
  | .float x => .ok (.boolean (x != 0.0))
  | .text s => converted v .boolean pos ((readBoolean? (Text.trim s.toList)).map .boolean)
  | .callable _ => .error (notScalar .bool v pos)

end Native

end Primer
