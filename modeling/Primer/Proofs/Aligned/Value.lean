import Primer.Native.Character
import Primer.Native.Draw
import Primer.Operator.Apply
import Primer.Proofs.Aligned
import Primer.Table

/-!
# Values that differ in positions only

Subroutines keep the positions of their bodies, so values are aligned rather than equal. Nothing
that computes with values can tell aligned ones apart: operators and conversions give aligned
results, and their faults stand at the position they are given.
-/

set_option autoImplicit false

namespace Primer

variable {R Q : Position → Position → Prop}

/-- The values are equal up to positions in the bodies of subroutines. -/
inductive Value.Aligned (R : Position → Position → Prop) : Value → Value → Prop
  | integer (n : Int64) : Aligned R (.integer n) (.integer n)
  | float (x : Float) : Aligned R (.float x) (.float x)
  | boolean (b : Bool) : Aligned R (.boolean b) (.boolean b)
  | text (s : String) : Aligned R (.text s) (.text s)
  | native (n : Native) : Aligned R (.callable (.native n)) (.callable (.native n))
  | user (kind : SubroutineKind) (name : String) (params : List String) {body body' : List Stmt}
      (hbody : List.Forall₂ (Stmt.Aligned R) body body') :
      Aligned R (.callable (.user ⟨kind, name, params, body⟩))
        (.callable (.user ⟨kind, name, params, body'⟩))

namespace Value

theorem aligned_refl (hR : ∀ p, R p p) (v : Value) : v.Aligned R v := by
  cases v with
  | integer n => exact .integer n
  | float x => exact .float x
  | boolean b => exact .boolean b
  | text s => exact .text s
  | callable c =>
    cases c with
    | native n => exact .native n
    | user s => exact .user s.kind s.name s.params (Stmt.aligned_reflOf hR s.body)

/-- A literal holds no positions. -/
theorem aligned_ofLiteral (v : Literal) : (ofLiteral v).Aligned R (ofLiteral v) := by
  cases v <;> constructor

/-- Aligned values are of one kind. -/
theorem Aligned.kind_eq {v w : Value} (h : v.Aligned R w) : v.kind = w.kind := by
  cases h <;> rfl

/-- Aligned values are shown in the same way. -/
theorem Aligned.shown_eq {v w : Value} (h : v.Aligned R w) : v.shown = w.shown := by
  cases h <;> rfl

theorem Aligned.toFloat?_eq {v w : Value} (h : v.Aligned R w) : v.toFloat? = w.toFloat? := by
  cases h <;> rfl

/-- Both values are the same Boolean, or neither is one. -/
theorem Aligned.toBoolean {v w : Value} (h : v.Aligned R w) (subject : String) {p q : Position}
    (hp : R p q) : ResultAligned R Eq (v.toBoolean subject p) (w.toBoolean subject q) := by
  cases h with
  | boolean b => exact .ok rfl
  | _ => exact .error ⟨rfl, hp, rfl⟩

theorem Aligned.toInteger {v w : Value} (h : v.Aligned R w) (subject : String) {p q : Position}
    (hp : R p q) : ResultAligned R Eq (v.toInteger subject p) (w.toInteger subject q) := by
  cases h with
  | integer n => exact .ok rfl
  | _ => exact .error ⟨rfl, hp, rfl⟩

end Value

/-! ## Operators -/

theorem ResultAligned.bind {α β : Type} {A : α → α → Prop} {B : β → β → Prop}
    {x y : Except Fault α} {f g : α → Except Fault β} (h : ResultAligned R A x y)
    (hfg : ∀ a b, A a b → ResultAligned R B (f a) (g b)) :
    ResultAligned R B (x >>= f) (y >>= g) := by
  cases h with
  | ok hab => exact hfg _ _ hab
  | error hfault => exact .error hfault

namespace BinaryOp

/-- A result that does not fit is refused at aligned positions. -/
theorem aligned_fitted (op : BinaryOp) (a b : Int64) {p q : Position} (hp : R p q)
    (result : Option Int64) :
    ResultAligned R (Value.Aligned R) (op.fitted a b p result) (op.fitted a b q result) := by
  cases result with
  | some n => exact .ok (.integer n)
  | none => exact .error ⟨rfl, hp, rfl⟩

theorem aligned_onIntegers (op : BinaryOp) (a b : Int64) {p q : Position} (hp : R p q) :
    ResultAligned R (Value.Aligned R) (op.onIntegers a b p) (op.onIntegers a b q) := by
  simp only [onIntegers]
  -- a zero divisor is looked for first
  split
  · refine .error ⟨rfl, hp, ?_⟩
    cases op <;> rfl
  · cases op with
    | divide =>
      dsimp only
      split
      · exact aligned_fitted _ a b hp _
      · exact .ok (.float _)
    | add | subtract | multiply | modulo | quotient => exact aligned_fitted _ a b hp _
    | _ => exact .error ⟨rfl, hp, rfl⟩

theorem aligned_onFloats (op : BinaryOp) (a b : Float) {p q : Position} (hp : R p q) :
    ResultAligned R (Value.Aligned R) (op.onFloats a b p) (op.onFloats a b q) := by
  simp only [onFloats]
  split
  · refine .error ⟨rfl, hp, ?_⟩
    cases op <;> rfl
  · cases op with
    | add | subtract | multiply | divide | modulo | quotient => exact .ok (.float _)
    | _ => exact .error ⟨rfl, hp, rfl⟩

/-- Arithmetic is refused or done in the same way at aligned positions. -/
theorem aligned_arithmetic (op : BinaryOp) (a b : Value) {p q : Position} (hp : R p q) :
    ResultAligned R (Value.Aligned R) (op.arithmetic a b p) (op.arithmetic a b q) := by
  simp only [arithmetic]
  split
  · exact aligned_onIntegers op _ _ hp
  · split
    · exact .ok (.text _)
    · exact .error ⟨rfl, hp, rfl⟩
  · split
    · exact aligned_onFloats op _ _ hp
    · exact .error ⟨rfl, hp, rfl⟩

theorem aligned_floatPower (a b : Value) {p q : Position} (hp : R p q) :
    ResultAligned R (Value.Aligned R) (floatPower a b p) (floatPower a b q) := by
  simp only [floatPower]
  split
  · split
    · split
      · simp only [Value.ofWhole]
        split
        · exact .ok (.integer _)
        · exact .ok (.float _)
      · exact .ok (.float _)
    · exact .error ⟨rfl, hp, rfl⟩
  · exact .error ⟨rfl, hp, rfl⟩

theorem aligned_raise (a b : Value) {p q : Position} (hp : R p q) :
    ResultAligned R (Value.Aligned R) (raise a b p) (raise a b q) := by
  simp only [raise]
  split
  · split
    · exact aligned_fitted _ _ _ hp _
    · exact aligned_floatPower _ _ hp
  · exact aligned_floatPower _ _ hp

theorem aligned_compare (c : Comparison) (a b : Value) {p q : Position} (hp : R p q) :
    ResultAligned R (Value.Aligned R) (c.apply a b p) (c.apply a b q) := by
  simp only [Comparison.apply]
  split
  · exact .ok (.boolean _)
  · exact .ok (.boolean _)
  · split
    · exact .ok (.boolean _)
    · exact .error ⟨rfl, hp, rfl⟩
  · split
    · split <;> exact .ok (.boolean _)
    · exact .error ⟨rfl, hp, rfl⟩

theorem aligned_logic (op : BinaryOp) (a b : Value) {p q : Position} (hp : R p q) :
    ResultAligned R (Value.Aligned R) (op.logic a b p) (op.logic a b q) := by
  have hboolean : ∀ v : Value, ResultAligned R Eq (v.toBoolean (operandOf op.text) p)
      (v.toBoolean (operandOf op.text) q) := by
    intro v
    cases v with
    | boolean b => exact .ok rfl
    | _ => exact .error ⟨rfl, hp, rfl⟩
  refine (hboolean a).bind ?_
  rintro x _ rfl
  refine (hboolean b).bind ?_
  rintro y _ rfl
  cases op with
  | conj | disj => exact .ok (.boolean _)
  | _ => exact .error ⟨rfl, hp, rfl⟩

/-- Operators cannot tell subroutines apart. -/
theorem apply_callable (op : BinaryOp) (c d : Callable) (v : Value) (p : Position) :
    op.apply (.callable c) v p = op.apply (.callable d) v p ∧
      op.apply v (.callable c) p = op.apply v (.callable d) p := by
  cases op <;> cases v <;> exact ⟨rfl, rfl⟩

/-- Operators do not tell aligned operands from each other. -/
theorem aligned_apply (op : BinaryOp) {a a' b b' : Value} (ha : a.Aligned R a')
    (hb : b.Aligned R b') {p q : Position} (hp : R p q) :
    ResultAligned R (Value.Aligned R) (op.apply a b p) (op.apply a' b' q) := by
  -- aligned operands differ in subroutines only, so each can be put in the other's place
  have hleft : op.apply a b p = op.apply a' b p := by
    cases ha with
    | user => exact (op.apply_callable _ _ b p).1
    | _ => rfl
  have hright : op.apply a' b p = op.apply a' b' p := by
    cases hb with
    | user => exact (op.apply_callable _ _ a' p).2
    | _ => rfl
  rw [hleft, hright]
  cases op with
  | power => exact aligned_raise a' b' hp
  | compare c => exact aligned_compare c a' b' hp
  | conj | disj => exact aligned_logic _ a' b' hp
  | _ => exact aligned_arithmetic _ a' b' hp

end BinaryOp

theorem UnaryOp.aligned_apply (op : UnaryOp) {v w : Value} (h : v.Aligned R w) {p q : Position}
    (hp : R p q) : ResultAligned R (Value.Aligned R) (op.apply v p) (op.apply w q) := by
  cases op with
  | negation => exact (h.toBoolean _ hp).map fun _ _ _ => by subst_vars; exact .boolean _
  | plus =>
    cases h with
    | integer n => exact .ok (.integer n)
    | float x => exact .ok (.float x)
    | _ => exact .error ⟨rfl, hp, rfl⟩
  | minus =>
    cases h with
    | integer n =>
      simp only [apply]
      split
      · exact .ok (.integer _)
      · exact .error ⟨rfl, hp, rfl⟩
    | float x => exact .ok (.float _)
    | _ => exact .error ⟨rfl, hp, rfl⟩

/-! ## What the language provides -/

namespace Native

variable {args args' : List Value} {p q : Position}

theorem aligned_single (native : Native) (h : List.Forall₂ (Value.Aligned R) args args')
    (hp : R p q) :
    ResultAligned R (Value.Aligned R) (single native args p) (single native args' q) := by
  have hlength := h.length_eq
  cases h with
  | nil => exact .error ⟨rfl, hp, rfl⟩
  | cons hv hrest =>
    cases hrest with
    | nil => exact .ok hv
    | cons _ _ =>
      simp only [single, hlength]
      exact .error ⟨rfl, hp, rfl⟩

/-- A conversion that fails says the same of both values. -/
theorem aligned_converted {v w : Value} (h : v.Aligned R w) (target : Kind) (hp : R p q)
    {result : Option Value} (hresult : ∀ x ∈ result, x.Aligned R x) :
    ResultAligned R (Value.Aligned R) (converted v target p result)
      (converted w target q result) := by
  cases result with
  | some x => exact .ok (hresult x rfl)
  | none => cases h <;> exact .error ⟨rfl, hp, rfl⟩

theorem aligned_toText (h : List.Forall₂ (Value.Aligned R) args args') (hp : R p q) :
    ResultAligned R (Value.Aligned R) (toText args p) (toText args' q) := by
  refine (aligned_single .str h hp).bind fun v w hvw => ?_
  rw [hvw.shown_eq]
  exact .ok (.text _)

theorem aligned_toInteger (h : List.Forall₂ (Value.Aligned R) args args') (hp : R p q) :
    ResultAligned R (Value.Aligned R) (toInteger args p) (toInteger args' q) := by
  refine (aligned_single .int h hp).bind fun v w hvw => ?_
  have hread : ∀ (o : Option Int64), ∀ x ∈ o.map Value.integer, x.Aligned R x := by
    intro o x hx
    obtain ⟨n, -, rfl⟩ := Option.map_eq_some_iff.1 hx
    exact .integer n
  cases hvw with
  | integer n => exact .ok (.integer n)
  | float x => exact aligned_converted (.float x) _ hp (hread _)
  | boolean b => exact .ok (.integer _)
  | text s => exact aligned_converted (.text s) _ hp (hread _)
  | _ => exact .error ⟨rfl, hp, rfl⟩

theorem aligned_toFloat (h : List.Forall₂ (Value.Aligned R) args args') (hp : R p q) :
    ResultAligned R (Value.Aligned R) (toFloat args p) (toFloat args' q) := by
  refine (aligned_single .float h hp).bind fun v w hvw => ?_
  cases hvw with
  | integer n => exact .ok (.float _)
  | float x => exact .ok (.float x)
  | boolean b => exact .ok (.float _)
  | text s =>
    refine aligned_converted (.text s) _ hp fun x hx => ?_
    obtain ⟨y, -, rfl⟩ := Option.map_eq_some_iff.1 hx
    exact .float y
  | _ => exact .error ⟨rfl, hp, rfl⟩

theorem aligned_toBoolean (h : List.Forall₂ (Value.Aligned R) args args') (hp : R p q) :
    ResultAligned R (Value.Aligned R) (toBoolean args p) (toBoolean args' q) := by
  refine (aligned_single .bool h hp).bind fun v w hvw => ?_
  cases hvw with
  | boolean b => exact .ok (.boolean b)
  | integer n => exact .ok (.boolean _)
  | float x => exact .ok (.boolean _)
  | text s =>
    refine aligned_converted (.text s) _ hp fun x hx => ?_
    obtain ⟨b, -, rfl⟩ := Option.map_eq_some_iff.1 hx
    exact .boolean b
  | _ => exact .error ⟨rfl, hp, rfl⟩

theorem aligned_codeOf (h : List.Forall₂ (Value.Aligned R) args args') (hp : R p q) :
    ResultAligned R (Value.Aligned R) (codeOf args p) (codeOf args' q) := by
  refine (aligned_single .asc h hp).bind fun v w hvw => ?_
  cases hvw with
  | text s =>
    dsimp only
    split
    · exact .ok (.integer _)
    · exact .error ⟨rfl, hp, rfl⟩
  | _ => exact .error ⟨rfl, hp, rfl⟩

theorem aligned_ofCode (h : List.Forall₂ (Value.Aligned R) args args') (hp : R p q) :
    ResultAligned R (Value.Aligned R) (ofCode args p) (ofCode args' q) := by
  refine (aligned_single .chr h hp).bind fun v w hvw => ?_
  cases hvw with
  | integer n =>
    dsimp only
    split
    · exact .ok (.text _)
    · exact .error ⟨rfl, hp, rfl⟩
  | _ => exact .error ⟨rfl, hp, rfl⟩

/-- The same was drawn, and the generator is in the same state; or it broke off over the same
bounds. -/
inductive DrawAligned (R : Position → Position → Prop) : Drawn → Drawn → Prop
  | number {v w : Value} (hvw : v.Aligned R w) (draws : Draws) :
      DrawAligned R (.number v draws) (.number w draws)
  | tooWide (least most : Float) : DrawAligned R (.tooWide least most) (.tooWide least most)

/-- The bounds are the same, so the same double is drawn or the same range refused. -/
theorem aligned_drawFloat (draws : Draws) {v v' w w' : Value} (hv : v.Aligned R v')
    (hw : w.Aligned R w') (hp : R p q) :
    ResultAligned R (DrawAligned R) (drawFloat draws v w p) (drawFloat draws v' w' q) := by
  have hbound : ∀ {x y : Value}, x.Aligned R y →
      ResultAligned R Eq (drawBound x p) (drawBound y q) := by
    intro x y hxy
    simp only [drawBound, hxy.toFloat?_eq, hxy.kind_eq]
    split
    · exact .ok rfl
    · exact .error ⟨rfl, hp, rfl⟩
  refine (hbound hv).bind ?_
  rintro a _ rfl
  refine (hbound hw).bind ?_
  rintro b _ rfl
  split
  · simp only [nothingToDraw, hv.shown_eq, hw.shown_eq]
    exact .error ⟨rfl, hp, rfl⟩
  · split
    · exact .ok (.number (.float a) draws)
    · split
      · exact .ok (.number (.float _) _)
      · exact .ok (.tooWide a b)

theorem aligned_draw (draws : Draws) (h : List.Forall₂ (Value.Aligned R) args args')
    (hp : R p q) : ResultAligned R (DrawAligned R) (draw draws args p) (draw draws args' q) := by
  have harity : ∀ {as bs : List Value}, as.length = bs.length →
      ResultAligned R (DrawAligned R)
        (.error ⟨.wrongArity random.name 2 2 as.length, p⟩)
        (.error ⟨.wrongArity random.name 2 2 bs.length, q⟩) := by
    intro as bs hlength
    rw [hlength]
    exact .error ⟨rfl, hp, rfl⟩
  have hlength := h.length_eq
  cases h with
  | nil => exact harity rfl
  | cons hv hrest =>
    cases hrest with
    | nil =>
      simp only [draw]
      exact harity hlength
    | cons hw hmore =>
      cases hmore with
      | nil =>
        -- two whole bounds draw a whole number, any others a double
        have hfloat := aligned_drawFloat draws hv hw hp
        cases hv with
        | integer a =>
          cases hw with
          | integer b =>
            simp only [draw]
            split
            · exact .error ⟨rfl, hp, rfl⟩
            · exact .ok (.number (.integer _) _)
          | _ => exact hfloat
        | _ => exact hfloat
      | cons _ _ =>
        simp only [draw]
        exact harity hlength

end Native

end Primer
