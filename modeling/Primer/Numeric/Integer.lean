import Primer.Decimal.Reading

/-!
# Integers of the language

Integers are 64-bit and signed. What may leave their range is computed on unbounded integers and
then brought back by `Integer.fit?`, so a result is exact or absent. Remainders never leave the
range, and are taken on the 64-bit integers themselves.
-/

set_option autoImplicit false

namespace Primer.Integer

/-- The number of integers of each sign, zero counting as positive: two to the power 63. -/
def limit : Int := 9223372036854775808

/-- The 64-bit integer of this value, if there is one. -/
def fit? (n : Int) : Option Int64 :=
  if -limit ≤ n ∧ n < limit then some (Int64.ofInt n) else none

/-- The decimal text: a minus for negative numbers, and digits without leading zeros. -/
def text (n : Int64) : String :=
  if n.toInt < 0 then "-" ++ n.toInt.natAbs.repr else n.toInt.natAbs.repr

/-- The integer of a sequence of digits, negated if `negative`, if it is in range. Past the limit
further digits cannot bring the value back into range, so they are not read. -/
def ofDigits? (negative : Bool) (ds : List Char) : Option Int64 :=
  let n := Int.ofNat (Decimal.valueUpTo (limit.toNat + 1) ds)
  fit? (if negative then -n else n)

/-- The integer that a text of an optional sign and at least one digit stands for, if it is in
range. -/
def read? (cs : List Char) : Option Int64 :=
  let (negative, ds) := Decimal.splitSign cs
  if ds.isEmpty || !ds.all Char.isDigit then none
  else ofDigits? negative ds

/-- The integer part of a quotient, if the divisor is not zero and the part is in range. -/
def quotient? (a b : Int64) : Option Int64 :=
  if b = 0 then none else fit? (a.toInt.tdiv b.toInt)

/-- The floor of a quotient, found from its integer part: where the remainder is not zero and has
the other sign than the divisor, it is one less. -/
def floor? (a b : Int64) : Option Int64 :=
  (quotient? a b).map fun q =>
    let r := a % b
    if r ≠ 0 ∧ decide (r < 0) ≠ decide (b < 0) then q - 1 else q

/-- The nearest double. -/
def toFloat (n : Int64) : Float := Float.ofInt n.toInt

/-- The integer part of a double, if it is in range. -/
def truncate? (x : Float) : Option Int64 :=
  match Binary.ofFloat x with
  | .finite negative mantissa exponent =>
    let n := Int.ofNat (Binary.wholePart mantissa exponent)
    fit? (if negative then -n else n)
  | _ => none

/-- The integer equal to a double, if there is one. -/
def ofFloat? (x : Float) : Option Int64 :=
  match Binary.ofFloat x with
  | .finite _ mantissa exponent => if Binary.isWhole mantissa exponent then truncate? x else none
  | _ => none

/-- The character with this code, if the code is a Unicode scalar value. -/
def toChar? (n : Int64) : Option Char :=
  let code := n.toInt
  if 0 ≤ code ∧ code.toNat.isValidChar then some (Char.ofNat code.toNat) else none

end Primer.Integer
