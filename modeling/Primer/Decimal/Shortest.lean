import Primer.Decimal.Binary

/-!
# The fewest digits that read back

A positive double `m * 2 ^ q` is the nearest double of every real in an interval around it. The
interval reaches half way to both neighbours and holds its ends exactly when `m` is even.
`Decimal.shortest` finds the decimal with the fewest digits in that interval, and of two with
equally many digits the nearer one; a tie goes up. Everything is exact natural arithmetic.
-/

set_option autoImplicit false

namespace Primer

/-- A non-negative decimal `digits * 10 ^ exponent`. -/
structure Decimal where
  digits : Nat
  exponent : Int
deriving DecidableEq, Repr

namespace Decimal

/-- A power of ten. -/
def pow10 (n : Nat) : Nat := Nat.pow 10 n

/-- A positive real and the reals that round to it, as numerators over one denominator. -/
structure Interval where
  low : Nat
  value : Nat
  high : Nat
  denominator : Nat
  closed : Bool

/-- The reals whose nearest double is `mantissa * 2 ^ exponent`. Below a power of two the
neighbouring doubles are twice as dense, which moves the lower end. -/
def Interval.ofBinary (mantissa : Nat) (exponent : Int) : Interval :=
  let below := if mantissa = pow2 52 ∧ Binary.leastExponent < exponent then 1 else 2
  let up := (exponent - 2).toNat
  let down := (2 - exponent).toNat
  { low := (4 * mantissa - below) * pow2 up
    value := 4 * mantissa * pow2 up
    high := (4 * mantissa + 2) * pow2 up
    denominator := pow2 down
    closed := mantissa % 2 = 0 }

/-- Whether the fraction `num / den` lies in the interval. -/
def Interval.holds (i : Interval) (num den : Nat) : Bool :=
  let left := i.low * den
  let right := i.high * den
  let point := num * i.denominator
  if i.closed then left ≤ point && point ≤ right else left < point && point < right

/-- The least exponent from the given one on with `den ≤ num * 10 ^ j`, among the first `fuel`. -/
def leadingZeros (num den : Nat) : Nat → Nat → Nat
  | 0, j => j
  | fuel + 1, j => if den ≤ num * pow10 j then j else leadingZeros num den fuel (j + 1)

/-- The power `k` of ten with `10 ^ (k - 1) ≤ num / den < 10 ^ k`, for a positive fraction. -/
def magnitude (num den : Nat) : Int :=
  if den ≤ num then Int.ofNat (Nat.toDigits 10 (num / den)).length
  else 1 - Int.ofNat (leadingZeros num den 400 0)

/-- The decimal of `places` digits nearest to the value, if it lies in the interval: one of the
two neighbours of the value on the grid of that many digits. -/
def nearestOfLength (i : Interval) (k : Int) (places : Nat) : Option Decimal :=
  let unit := k - Int.ofNat places
  let num := i.value * pow10 (-unit).toNat
  let den := i.denominator * pow10 unit.toNat
  let down := num / den
  let up := down + 1
  let within (d : Nat) : Bool := i.holds (d * pow10 unit.toNat) (pow10 (-unit).toNat)
  let nearerDown : Bool := 2 * (num - down * den) < den
  if within down && (nearerDown || !within up) then some ⟨down, unit⟩
  else if within up then some ⟨up, unit⟩
  else none

/-- The first length from `places` on, among `fuel` of them, that has a decimal in the interval. -/
def search (i : Interval) (k : Int) : Nat → Nat → Decimal
  | 0, places => ⟨i.value * pow10 (Int.ofNat places - k).toNat / i.denominator, k - places⟩
  | fuel + 1, places =>
    match nearestOfLength i k places with
    | some d => d
    | none => search i k fuel (places + 1)

/-- The decimal with the fewest digits that reads back as `mantissa * 2 ^ exponent`, for a positive
mantissa. Seventeen digits always suffice. -/
def shortest (mantissa : Nat) (exponent : Int) : Decimal :=
  let i := Interval.ofBinary mantissa exponent
  search i (magnitude i.value i.denominator) 17 1

end Decimal

end Primer
