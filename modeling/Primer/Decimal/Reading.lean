import Primer.Decimal.Shortest

/-!
# Reading decimal text as a double

A decimal text is an optional sign, digits with at most one point among or around them, and an
optional exponent. Its value is rounded to the nearest double, to infinity when it is too large.

Two rules keep the numbers small. Digits after the first `significantLimit` significant ones count
only by not being all zero, which changes no result. An exponent stops growing once it has reached
`exponentLimit`, which shows only in texts with tens of thousands of digits.
-/

set_option autoImplicit false

namespace Primer.Decimal

/-- The nearest double. Far outside the range of doubles the answer is known from the number of
digits, which keeps the powers of ten small. -/
def toFloat (d : Decimal) : Float :=
  let power := d.exponent + Int.ofNat (Nat.toDigits 10 d.digits).length
  if d.digits = 0 || power < -400 then Float.ofScientific 0 false 0
  else if 400 < power then (Binary.infinite false).toFloat
  else Float.ofScientific d.digits (d.exponent < 0) d.exponent.natAbs

/-- The number of significant digits that are kept. A point half way between two neighbouring
doubles has at most 767 of them, so what follows is never decided by more than whether it is
zero. -/
def significantLimit : Nat := 800

/-- The decimal written with the given digits, the last of which stands for `10 ^ exponent`. If
there are more significant digits than the limit, one digit stands for all others: a zero if they
are all zeros, else a one. -/
def ofDigits (ds : List Char) (exponent : Int) : Decimal :=
  let significant := ds.dropWhile (· == '0')
  match significant.drop significantLimit with
  | [] => ⟨Nat.ofDigitChars 10 significant 0, exponent⟩
  | others =>
    let last := if others.all (· == '0') then '0' else '1'
    ⟨Nat.ofDigitChars 10 (significant.take significantLimit ++ [last]) 0,
      exponent + Int.ofNat others.length - 1⟩

/-- The value of a sequence of digits, of which those are passed over that follow once the value
has reached a limit. Below the limit it is exact, and it never exceeds the exact value. -/
def valueUpTo (limit : Nat) (ds : List Char) : Nat :=
  ds.foldl (fun n c => if n < limit then Nat.ofDigitChars 10 [c] n else n) 0

/-- The limit of exponents: two to the power 16. -/
def exponentLimit : Nat := 65536

/-- Splits an optional sign off a text; the flag says that it was a minus. -/
def splitSign : List Char → Bool × List Char
  | '-' :: cs => (true, cs)
  | '+' :: cs => (false, cs)
  | cs => (false, cs)

/-- The exponent written after the mark `e`: an optional sign and at least one digit. -/
def readExponent? (cs : List Char) : Option Int :=
  let (negative, ds) := splitSign cs
  if ds.isEmpty || !ds.all Char.isDigit then none
  else
    let n := Int.ofNat (valueUpTo exponentLimit ds)
    some (if negative then -n else n)

/-- The exponent part of a decimal text: nothing, or the mark and an exponent. -/
def readExponentPart? : List Char → Option Int
  | [] => some 0
  | c :: cs => if c == 'e' || c == 'E' then readExponent? cs else none

/-- An unsigned decimal text. -/
def readUnsigned? (cs : List Char) : Option Decimal :=
  let whole := cs.takeWhile Char.isDigit
  let afterWhole := cs.dropWhile Char.isDigit
  let (fraction, rest) :=
    match afterWhole with
    | '.' :: r => (r.takeWhile Char.isDigit, r.dropWhile Char.isDigit)
    | r => ([], r)
  if whole.isEmpty && fraction.isEmpty then none
  else (readExponentPart? rest).map fun e =>
    ofDigits (whole ++ fraction) (e - Int.ofNat fraction.length)

/-- The double that a signed decimal text stands for. -/
def read? (cs : List Char) : Option Float :=
  let (negative, rest) := splitSign cs
  (readUnsigned? rest).map fun d => if negative then -d.toFloat else d.toFloat

end Primer.Decimal
