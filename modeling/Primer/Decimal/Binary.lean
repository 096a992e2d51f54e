/-!
# Double-precision numbers taken apart

`Binary.ofFloat` reads the fields of a double: it is not a number, an infinity, or
`± mantissa · 2 ^ exponent` with an exact natural mantissa. `Binary.toFloat` packs such a triple
again. Every exact computation on doubles (digits, truncation, remainder) works on this form.
-/

set_option autoImplicit false

namespace Primer

/-- A power of two. -/
def pow2 (n : Nat) : Nat := Nat.pow 2 n

/-- A double by its parts; a finite one is `± mantissa * 2 ^ exponent`. -/
inductive Binary where
  | nan
  | infinite (negative : Bool)
  | finite (negative : Bool) (mantissa : Nat) (exponent : Int)
deriving DecidableEq, Repr

namespace Binary

/-- The least exponent: subnormal doubles are multiples of `2 ^ leastExponent`. -/
def leastExponent : Int := -1074

/-- The parts of a double, read from its 64 bits. -/
def ofFloat (x : Float) : Binary :=
  let bits := x.toBits.toNat
  let negative : Bool := pow2 63 ≤ bits
  let field := bits / pow2 52 % 2048
  let fraction := bits % pow2 52
  if field = 2047 then
    if fraction = 0 then .infinite negative else .nan
  else if field = 0 then .finite negative fraction leastExponent
  else .finite negative (pow2 52 + fraction) (Int.ofNat field - 1075)

/-- The double with the given sign bit, exponent field and fraction. -/
def pack (negative : Bool) (field fraction : Nat) : Float :=
  Float.ofBits (UInt64.ofNat ((if negative then pow2 63 else 0) + field * pow2 52 + fraction))

/-- The double with these parts. It is exact for a mantissa below `2 ^ 53` whose exponent is
neither below `leastExponent` nor too large for a finite double. -/
def toFloat : Binary → Float
  | .nan => pack false 2047 1
  | .infinite negative => pack negative 2047 0
  | .finite negative mantissa exponent =>
    if mantissa = 0 then pack negative 0 0
    else
      let shift := min (52 - mantissa.log2) (exponent - leastExponent).toNat
      let scaled := mantissa * pow2 shift
      if scaled < pow2 52 then pack negative 0 scaled
      else pack negative (exponent - shift + 1075).toNat (scaled - pow2 52)

/-- The integer part of the magnitude `mantissa * 2 ^ exponent`. -/
def wholePart (mantissa : Nat) (exponent : Int) : Nat :=
  if 0 ≤ exponent then mantissa * pow2 exponent.toNat else mantissa / pow2 (-exponent).toNat

/-- Whether the magnitude `mantissa * 2 ^ exponent` is a whole number. -/
def isWhole (mantissa : Nat) (exponent : Int) : Bool :=
  0 ≤ exponent || mantissa % pow2 (-exponent).toNat == 0

end Binary

end Primer
