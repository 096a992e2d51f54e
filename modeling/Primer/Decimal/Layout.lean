import Primer.Decimal.Shortest

/-!
# Written forms of doubles

Both forms write the fewest digits that read back. `Layout.positional` never uses an exponent;
`Layout.compact` uses one below `10 ^ -4` and from `10 ^ 16` on.
-/

set_option autoImplicit false

namespace Primer

/-- When the written form of a double has an exponent, by the power of ten of its first digit. -/
structure Layout where
  usesExponent : Int → Bool

namespace Layout

/-- Digits around a point only. -/
def positional : Layout := ⟨fun _ => false⟩

/-- Digits around a point from `10 ^ -4` up to `10 ^ 16`, an exponent outside. -/
def compact : Layout := ⟨fun power => power < -4 || 16 ≤ power⟩

/-- Removes trailing zeros. -/
def dropTrailingZeros (ds : List Char) : List Char :=
  (ds.reverse.dropWhile (· == '0')).reverse

/-- Digits around a point, the first digit standing for `10 ^ power`; at least one digit stands on
each side. -/
def aroundPoint (ds : List Char) (power : Int) : List Char :=
  let whole := (power + 1).toNat
  if power < 0 then '0' :: '.' :: (List.replicate (-power - 1).toNat '0' ++ ds)
  else if ds.length ≤ whole then ds ++ List.replicate (whole - ds.length) '0' ++ ['.', '0']
  else ds.take whole ++ '.' :: ds.drop whole

/-- One digit, the others after a point, and the exponent. -/
def withExponent (ds : List Char) (power : Int) : List Char :=
  let tail := ds.drop 1
  ds.take 1 ++ (if tail.isEmpty then [] else '.' :: tail) ++ 'e' ::
    ((if power < 0 then ['-'] else []) ++ Nat.toDigits 10 power.natAbs)

/-- The written form of a double. -/
def write (layout : Layout) (x : Float) : String :=
  match Binary.ofFloat x with
  | .nan => "NaN"
  | .infinite negative => if negative then "-inf" else "inf"
  | .finite negative mantissa exponent =>
    let magnitude :=
      if mantissa = 0 then ['0', '.', '0']
      else
        let d := Decimal.shortest mantissa exponent
        let all := Nat.toDigits 10 d.digits
        let power := d.exponent + Int.ofNat all.length - 1
        let ds := dropTrailingZeros all
        if layout.usesExponent power then withExponent ds power else aroundPoint ds power
    String.ofList (if negative then '-' :: magnitude else magnitude)

end Layout

end Primer
