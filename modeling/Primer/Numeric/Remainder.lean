import Primer.Decimal.Binary

/-!
# Remainder of truncated division on doubles

The remainder of two finite doubles is computed exactly: both are brought to the smaller of the
two exponents and the mantissas are divided as natural numbers. The result has the sign of the
dividend, and is always a double itself.
-/

set_option autoImplicit false

namespace Primer

/-- The remainder of the magnitudes `m * 2 ^ p` by `n * 2 ^ q`, for `n ≠ 0`, over the smaller
exponent. -/
def Binary.remainder (m : Nat) (p : Int) (n : Nat) (q : Int) : Nat × Int :=
  let e := min p q
  if p ≤ q then (m % (n * pow2 (q - e).toNat), e)
  else (m * pow2 (p - e).toNat % n, e)

/-- The remainder of truncated division. It is not a number when an operand is not one, the
dividend is infinite or the divisor is zero; an infinite divisor leaves the dividend. -/
def remainder (x y : Float) : Float :=
  match Binary.ofFloat x, Binary.ofFloat y with
  | .finite _ _ _, .infinite _ => x
  | .finite negative m p, .finite _ n q =>
    if n = 0 then Binary.nan.toFloat
    else
      let (r, e) := Binary.remainder m p n q
      (Binary.finite negative r e).toFloat
  | _, _ => Binary.nan.toFloat

end Primer
