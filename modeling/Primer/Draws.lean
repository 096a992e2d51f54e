/-!
# Drawing numbers

How numbers come to be drawn is left open. A `Generator` is any way to go from a state and the
bounds of a range to a number in the range and to the next state. Only a range of doubles that is
wider than a double can say has no number: there the generator breaks off.

What a run does with numbers that are drawn holds for every generator.
-/

set_option autoImplicit false

namespace Primer

/-- A generator of random numbers. Its states are numbered. -/
structure Generator where
  /-- An integer between two bounds, both included, and the state after it. -/
  integer : Nat → Int64 → Int64 → Int64 × Nat
  /-- A double from the first bound up to, and without, the second, and the state after it; none if
  the generator breaks off. -/
  float : Nat → Float → Float → Option (Float × Nat)
  integer_mem (state : Nat) {least most : Int64} (h : least ≤ most) :
    least ≤ (integer state least most).1 ∧ (integer state least most).1 ≤ most
  float_mem (state : Nat) {least most : Float} (h : least < most)
    (hspan : (most - least).isFinite = true) :
    ∃ drawn, float state least most = some drawn ∧ least ≤ drawn.1 ∧ drawn.1 < most
  float_wide (state : Nat) {least most : Float} (h : least < most)
    (hwide : (most - least).isFinite = false) : float state least most = none

/-- A generator in one of its states. -/
structure Draws where
  generator : Generator
  state : Nat

namespace Draws

/-- An integer between two bounds, both included. -/
def integer (d : Draws) (least most : Int64) : Int64 × Draws :=
  let (n, state) := d.generator.integer d.state least most
  (n, ⟨d.generator, state⟩)

/-- A double from the first bound up to, and without, the second; none if the generator breaks
off. -/
def float (d : Draws) (least most : Float) : Option (Float × Draws) :=
  match d.generator.float d.state least most with
  | some (x, state) => some (x, ⟨d.generator, state⟩)
  | none => none

end Draws

/-! ## The generator of least numbers -/

open Float.Model in
/-- A double that is less than another one is a number, and so at most itself. -/
theorem le_self_of_lt {a b : Float} (h : a < b) : a ≤ a := by
  have hlt : a.toModel.unpack.compare b.toModel.unpack = some .lt := by
    simpa [LT.lt, Float.lt, Float.Model.lt, UnpackedFloat.lt] using h
  have hle : (a.toModel.unpack.compare a.toModel.unpack).any (·.isLE) = true := by
    generalize a.toModel.unpack = u at hlt ⊢
    cases u with
    | notANumber => cases hlt
    | zero s => rfl
    | infinity s => cases s <;> rfl
    | finite s m e hm =>
      have hself : (compare e e).then (compare m m) = .eq := by simp
      cases s with
      | negative =>
        show (some ((compare e e).then (compare m m)).swap).any _ = true
        rw [hself]
        rfl
      | positive =>
        show (some ((compare e e).then (compare m m))).any _ = true
        rw [hself]
        rfl
  exact decide_eq_true hle

/-- The generator that always draws the least number of the range. -/
def Generator.lowest : Generator where
  integer state least _ := (least, state)
  float state least most := if (most - least).isFinite then some (least, state) else none
  integer_mem state least most h := ⟨Int64.le_refl least, h⟩
  float_mem state least most h hspan := ⟨(least, state), if_pos hspan, le_self_of_lt h, h⟩
  float_wide state least most h hwide := if_neg (by rw [hwide]; exact Bool.false_ne_true)

/-- The least numbers of all ranges. -/
def Draws.lowest : Draws := ⟨.lowest, 0⟩

instance : Inhabited Draws := ⟨Draws.lowest⟩

end Primer
