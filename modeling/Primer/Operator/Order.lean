import Primer.Value

/-!
# Comparisons

Two numbers, two texts and two truth values can be compared; truth values only for equality.
Numbers of different kinds are compared as doubles. Texts are ordered by code points. A double
that is not a number differs from everything and is ordered with nothing.
-/

set_option autoImplicit false

namespace Primer

namespace Comparison

/-- Whether the comparison holds between two values in the given order. -/
def holds : Comparison → Ordering → Bool
  | .equal, o => o.isEq
  | .notEqual, o => o.isNe
  | .less, o => o.isLT
  | .lessEqual, o => o.isLE
  | .greater, o => o.isGT
  | .greaterEqual, o => o.isGE

/-- Whether the comparison asks for equality only. -/
def isEquality : Comparison → Bool
  | .equal | .notEqual => true
  | _ => false

/-- The order of two doubles, if they have one. -/
def floatOrder (a b : Float) : Option Ordering :=
  if a < b then some .lt
  else if b < a then some .gt
  else if a == b then some .eq
  else none

/-- Compares two values. -/
def apply (c : Comparison) (left right : Value) (pos : Position) : Except Fault Value :=
  match left, right with
  | .integer a, .integer b => .ok (.boolean (c.holds (Ord.compare a.toInt b.toInt)))
  | .text a, .text b => .ok (.boolean (c.holds (Ord.compare a b)))
  | .boolean a, .boolean b =>
    if c.isEquality then .ok (.boolean (c.holds (Ord.compare a b)))
    else .error ⟨.unorderedBooleans c, pos⟩
  | l, r =>
    match l.toFloat?, r.toFloat? with
    | some a, some b =>
      match floatOrder a b with
      | some o => .ok (.boolean (c.holds o))
      | none => .ok (.boolean (c == .notEqual))
    | _, _ => .error ⟨.incomparable c l.kind r.kind, pos⟩

end Comparison

end Primer
