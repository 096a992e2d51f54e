import Primer.Proofs.Footprint.Value

/-!
# What is drawn

What a generator answers lies between the bounds (`Generator.integer_mem`, `Generator.float_mem`).
The provided subroutine asks for a number only where it has found the bounds in order, so what it
draws lies between them too (`Native.draw_integers`, `Native.draw_floats`), and it comes to nothing
only where the bounds of doubles are further apart than a double can say (`Native.yields_draw`).
-/

set_option autoImplicit false

namespace Primer

/-! ## The order of finite doubles -/

section Order

open Float.Model Float.Model.UnpackedFloat

/-- Comparing the other way round gives the opposite order. -/
theorem compare_swap {u v : UnpackedFloat} (hu : u.isFinite = true) (hv : v.isFinite = true) :
    ∃ o, u.compare v = some o ∧ v.compare u = some o.swap := by
  -- digits are compared after exponents
  have hdigits : ∀ (d e : Int) (m n : Nat), ((compare d e).then (compare m n)).swap =
      (compare e d).then (compare n m) := by
    intro d e m n
    rw [Ordering.swap_then, ← Std.OrientedOrd.eq_swap, ← Std.OrientedOrd.eq_swap]
  cases u with
  | infinity s => cases hu
  | notANumber => cases hu
  | zero s =>
    cases v with
    | infinity t => cases hv
    | notANumber => cases hv
    | zero t => exact ⟨.eq, rfl, rfl⟩
    | finite t n e hn => cases t <;> exact ⟨_, rfl, rfl⟩
  | finite s m d hm =>
    cases v with
    | infinity t => cases hv
    | notANumber => cases hv
    | zero t => cases s <;> exact ⟨_, rfl, rfl⟩
    | finite t n e hn =>
      cases s with
      | negative =>
        cases t with
        | positive => exact ⟨_, rfl, rfl⟩
        | negative =>
          exact ⟨((compare d e).then (compare m n)).swap, rfl, by rw [hdigits d e]; rfl⟩
      | positive =>
        cases t with
        | negative => exact ⟨_, rfl, rfl⟩
        | positive => exact ⟨(compare d e).then (compare m n), rfl, by rw [hdigits d e]; rfl⟩

/-- A double is less than another one if comparing what they stand for says so. -/
theorem lt_iff_compare {a b : Float} :
    a < b ↔ a.toModel.unpack.compare b.toModel.unpack = some .lt := by
  simp [LT.lt, Float.lt, Float.Model.lt, UnpackedFloat.lt]

theorem beq_iff_compare {a b : Float} :
    (a == b) = true ↔ a.toModel.unpack.compare b.toModel.unpack = some .eq :=
  beq_iff_eq (a := a.toModel.unpack.compare b.toModel.unpack)

/-- Of two finite doubles, one is less unless they equal each other. -/
theorem lt_of_finite {a b : Float} (ha : a.isFinite = true) (hb : b.isFinite = true)
    (hle : ¬b < a) (hne : ¬(a == b) = true) : a < b := by
  rw [lt_iff_compare] at hle ⊢
  rw [beq_iff_compare] at hne
  obtain ⟨o, ho, hswap⟩ := compare_swap (u := a.toModel.unpack) (v := b.toModel.unpack) ha hb
  cases o with
  | lt => exact ho
  | eq => exact absurd ho hne
  | gt => exact absurd hswap hle

/-- A finite double that is less than another one is neither greater nor equal. -/
theorem not_lt_of_finite {a b : Float} (ha : a.isFinite = true) (hb : b.isFinite = true)
    (h : a < b) : ¬b < a ∧ ¬(a == b) = true := by
  rw [lt_iff_compare] at h ⊢
  rw [beq_iff_compare]
  obtain ⟨o, ho, hswap⟩ := compare_swap (u := a.toModel.unpack) (v := b.toModel.unpack) ha hb
  obtain rfl := Option.some.inj (ho.symm.trans h)
  rw [hswap, ho]
  exact ⟨nofun, nofun⟩

end Order

/-! ## What the generator answers -/

namespace Draws

variable (d : Draws)

/-- An integer that is drawn lies between the bounds. -/
theorem integer_mem {least most : Int64} (h : least ≤ most) :
    least ≤ (d.integer least most).1 ∧ (d.integer least most).1 ≤ most :=
  d.generator.integer_mem d.state h

/-- A double that is drawn lies between the bounds, of which it may be the first. -/
theorem float_mem {least most : Float} (h : least < most)
    (hspan : (most - least).isFinite = true) :
    ∃ x d', d.float least most = some (x, d') ∧ least ≤ x ∧ x < most := by
  obtain ⟨⟨x, state⟩, hdrawn, hmem⟩ := d.generator.float_mem d.state h hspan
  exact ⟨x, ⟨d.generator, state⟩, by rw [float, hdrawn], hmem⟩

/-- A range that is too wide has no double to draw. -/
theorem float_wide {least most : Float} (h : least < most)
    (hwide : (most - least).isFinite = false) : d.float least most = none := by
  rw [float, d.generator.float_wide d.state h hwide]

end Draws

/-! ## What the provided subroutine draws -/

namespace Native

/-- What comes of drawing is a number, or the generator broke off over bounds that are further
apart than a double can say. -/
def Drawn.Fair : Drawn → Prop
  | .number v _ => v.IsScalar
  | .tooWide least most => (most - least).isFinite = false

/-- A whole number between whole bounds is drawn with them included. -/
theorem draw_integers (d : Draws) {least most : Int64} (h : least ≤ most) (pos : Position) :
    ∃ n d', draw d [.integer least, .integer most] pos = .ok (.number (.integer n) d') ∧
      least ≤ n ∧ n ≤ most := by
  refine ⟨(d.integer least most).1, (d.integer least most).2, ?_, d.integer_mem h⟩
  have hordered : ¬most.toInt < least.toInt := Int.not_lt.2 (Int64.le_iff_toInt_le.1 h)
  rw [draw, if_neg hordered]

variable {v w : Value} {a b : Float}

/-- Between finite doubles in order, the generator is asked. -/
theorem drawFloat_of_lt (d : Draws) (hv : v.toFloat? = some a) (hw : w.toFloat? = some b)
    (ha : a.isFinite = true) (hb : b.isFinite = true) (h : a < b) (pos : Position) :
    drawFloat d v w pos = .ok ((d.float a b).elim (.tooWide a b)
      fun drawn => .number (.float drawn.1) drawn.2) := by
  obtain ⟨hle, hne⟩ := not_lt_of_finite ha hb h
  simp only [drawFloat, drawBound, hv, hw, ha, hb, bind, Except.bind, Bool.not_true,
    Bool.false_or, decide_eq_true_eq, hle, hne, if_false]
  cases d.float a b <;> rfl

/-- A double is drawn between finite bounds in order, unless they are too far apart. -/
theorem draw_floats (d : Draws) (hv : v.toFloat? = some a) (hw : w.toFloat? = some b)
    (ha : a.isFinite = true) (hb : b.isFinite = true) (h : a < b)
    (hspan : (b - a).isFinite = true) (pos : Position) :
    ∃ x d', drawFloat d v w pos = .ok (.number (.float x) d') ∧ a ≤ x ∧ x < b := by
  obtain ⟨x, d', hdrawn, hmem⟩ := d.float_mem h hspan
  exact ⟨x, d', by rw [drawFloat_of_lt d hv hw ha hb h, hdrawn]; rfl, hmem⟩

/-- Between finite bounds that are too far apart, every generator breaks off. -/
theorem drawFloat_wide (d : Draws) (hv : v.toFloat? = some a) (hw : w.toFloat? = some b)
    (ha : a.isFinite = true) (hb : b.isFinite = true) (h : a < b)
    (hwide : (b - a).isFinite = false) (pos : Position) :
    drawFloat d v w pos = .ok (.tooWide a b) := by
  rw [drawFloat_of_lt d hv hw ha hb h, d.float_wide h hwide]
  rfl

/-- The generator breaks off only over bounds that are too far apart. -/
theorem yields_drawFloat (d : Draws) (v w : Value) (pos : Position) :
    Yields Drawn.Fair (drawFloat d v w pos) := by
  have hfloat : ∀ (x : Float) (d' : Draws), Yields Drawn.Fair (.ok (.number (.float x) d')) :=
    fun x d' => yields_ok (by simp [Drawn.Fair, Value.IsScalar, Value.kind])
  refine (yields_any _).bind fun a _ => ?_
  refine (yields_any _).bind fun b _ => ?_
  split
  · exact yields_error _
  · -- the bounds are finite and in order
    next hordered =>
    simp only [Bool.or_eq_true, Bool.not_eq_true', decide_eq_true_eq, not_or,
      Bool.not_eq_false] at hordered
    obtain ⟨⟨ha, hb⟩, hle⟩ := hordered
    split
    · exact hfloat a d
    · next hne =>
      split
      · exact hfloat _ _
      · next hnone =>
        -- had the range a span, the generator would have answered
        refine yields_ok (Bool.eq_false_iff.2 fun hspan => ?_)
        obtain ⟨x, d', hdrawn, -⟩ := d.float_mem (lt_of_finite ha hb hle hne) hspan
        cases hnone.symm.trans hdrawn

/-- A draw comes to a number of the range, or says that the range is too wide. -/
theorem yields_draw (args : List Value) (pos : Position) (d : Draws) :
    Yields Drawn.Fair (draw d args pos) := by
  unfold draw
  split
  · split
    · exact yields_error _
    · exact yields_ok (by simp [Drawn.Fair, Value.IsScalar, Value.kind])
  · exact yields_drawFloat d _ _ pos
  · exact yields_error _

end Native

end Primer
