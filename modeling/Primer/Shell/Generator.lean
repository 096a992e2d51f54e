import Primer.Draws

/-!
# A generator of 64-bit words

The state is one word. It advances by a fixed odd step, and the word drawn is the state after
mixing. A number in a range is had from a word by taking the remainder, or the share of all words.
-/

set_option autoImplicit false

namespace Primer.Shell

/-- The next state. -/
def advance (state : UInt64) : UInt64 := state + 0x9E3779B97F4A7C15

/-- The word that a state stands for. -/
def mix (state : UInt64) : UInt64 :=
  let a := (state ^^^ (state >>> 30)) * 0xBF58476D1CE4E5B9
  let b := (a ^^^ (a >>> 27)) * 0x94D049BB133111EB
  b ^^^ (b >>> 31)

/-- An integer between two bounds, if they are in order. -/
def integerOf (word : UInt64) (least most : Int64) : Int64 :=
  let span := most.toInt - least.toInt + 1
  Int64.ofInt (least.toInt + Int.ofNat word.toNat % span)

/-- A double from the first bound up to, and without, the second. Where rounding leads out of the
range it is the first bound. -/
def floatOf (word : UInt64) (least most : Float) : Float :=
  let share := Float.ofNat (word >>> 11).toNat / 9007199254740992.0
  let drawn := least + (most - least) * share
  if least ≤ drawn ∧ drawn < most then drawn else least

theorem integerOf_mem (word : UInt64) {least most : Int64} (h : least ≤ most) :
    least ≤ integerOf word least most ∧ integerOf word least most ≤ most := by
  rw [Int64.le_iff_toInt_le] at h
  have hlow := Int.emod_nonneg (Int.ofNat word.toNat)
    (show most.toInt - least.toInt + 1 ≠ 0 by omega)
  have hhigh := Int.emod_lt_of_pos (Int.ofNat word.toNat)
    (show 0 < most.toInt - least.toInt + 1 by omega)
  have hleast := least.le_toInt
  have hmost := most.toInt_lt
  have hvalue : (integerOf word least most).toInt = least.toInt +
      Int.ofNat word.toNat % (most.toInt - least.toInt + 1) :=
    Int64.toInt_ofInt_of_le (by omega) (by omega)
  rw [Int64.le_iff_toInt_le, Int64.le_iff_toInt_le, hvalue]
  omega

theorem floatOf_mem (word : UInt64) {least most : Float} (h : least < most) :
    least ≤ floatOf word least most ∧ floatOf word least most < most := by
  unfold floatOf
  dsimp only
  split
  · next hdrawn => exact hdrawn
  · exact ⟨le_self_of_lt h, h⟩

/-- The generator. -/
def words : Generator where
  integer state least most :=
    let next := advance (UInt64.ofNat state)
    (integerOf (mix next) least most, next.toNat)
  float state least most :=
    let next := advance (UInt64.ofNat state)
    if (most - least).isFinite then some (floatOf (mix next) least most, next.toNat) else none
  integer_mem _ _ _ h := integerOf_mem _ h
  float_mem _ _ _ h hspan := ⟨_, if_pos hspan, floatOf_mem _ h⟩
  float_wide _ _ _ _ hwide := if_neg (by rw [hwide]; exact Bool.false_ne_true)

end Primer.Shell
