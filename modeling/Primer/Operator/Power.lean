import Primer.Operator.Arithmetic

/-!
# Powers

An integer to a non-negative integer is exact or an overflow. Every other power is computed on
doubles and must be finite; of two integers it is an integer again when it is whole.
-/

set_option autoImplicit false

namespace Primer

/-- The exact power if it is in range. Only the bases `0`, `1` and `-1` have powers in range for
exponents from 64 on. -/
def Integer.power? (b : Int64) (e : Nat) : Option Int64 :=
  if e < 64 then Integer.fit? (Int.pow b.toInt e)
  else if b = 0 ∨ b = 1 then some b
  else if b = -1 then some (if e % 2 = 0 then 1 else -1)
  else none

/-- An integer if the double is whole and in range, else the double. -/
def Value.ofWhole (x : Float) : Value :=
  match Integer.ofFloat? x with
  | some n => .integer n
  | none => .float x

/-- A power on doubles. -/
def BinaryOp.floatPower (base exponent : Value) (pos : Position) : Except Fault Value :=
  match base.toFloat?, exponent.toFloat? with
  | some b, some e =>
    let result := Float.pow b e
    if result.isFinite then
      match base, exponent with
      | .integer _, .integer _ => .ok (Value.ofWhole result)
      | _, _ => .ok (.float result)
    else .error ⟨.noRealPower base.shown exponent.shown, pos⟩
  | _, _ => .error (BinaryOp.power.unsupported base.kind exponent.kind pos)

/-- A power of two values. -/
def BinaryOp.raise (base exponent : Value) (pos : Position) : Except Fault Value :=
  match base, exponent with
  | .integer b, .integer e =>
    if 0 ≤ e.toInt then BinaryOp.power.fitted b e pos (Integer.power? b e.toInt.toNat)
    else BinaryOp.floatPower base exponent pos
  | _, _ => BinaryOp.floatPower base exponent pos

end Primer
