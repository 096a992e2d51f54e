import Primer.Native.Character
import Primer.Native.Draw
import Primer.Operator.Apply
import Primer.Proofs.Carried
import Primer.Proofs.Session.Numbering

/-!
# Tests of syntax that values pass

A test of single statements extends to whole statements (`Stmt.all`), and from there to everything
that keeps syntax: a value passes it if its body does, and a table if its values do. Operators,
conversions and draws give scalars (`BinaryOp.yields_scalar` and its companions), which pass every
test, so the only syntax that a run can come upon is syntax that its tables held or that it was
given.
-/

set_option autoImplicit false

namespace Primer

/-! ## Statements -/

mutual

/-- Whether a statement passes a test together with all statements inside it, those of subroutines
that it defines included. -/
def Stmt.all (p : Stmt → Bool) : Stmt → Bool
  | .expr e => p (.expr e)
  | .assign target e pos => p (.assign target e pos)
  | .define kind name params body pos =>
    p (.define kind name params body pos) && Stmt.allOf p body
  | .ret value pos => p (.ret value pos)
  | .branch c body rest pos => p (.branch c body rest pos) && Stmt.allOf p body && rest.all p
  | .whileLoop c body pos => p (.whileLoop c body pos) && Stmt.allOf p body
  | .untilLoop body c pos => p (.untilLoop body c pos) && Stmt.allOf p body
  | .forLoop counter first last step body pos =>
    p (.forLoop counter first last step body pos) && Stmt.allOf p body

/-- Whether all statements of a list pass a test, with all statements inside them. -/
def Stmt.allOf (p : Stmt → Bool) : List Stmt → Bool
  | [] => true
  | s :: rest => s.all p && Stmt.allOf p rest

/-- Whether all statements in the arms of a conditional pass a test. -/
def Arms.all (p : Stmt → Bool) : Arms → Bool
  | .done => true
  | .otherwise body => Stmt.allOf p body
  | .elseif _ body rest => Stmt.allOf p body && rest.all p

end

/-- What a statement writes itself, before or after the statements inside it. -/
def Stmt.target? : Stmt → Option Target
  | .assign target _ _ => some target
  | .define _ name _ _ _ => some (Target.plain name)
  | .forLoop counter _ _ _ _ _ => some (Target.plain counter)
  | _ => none

/-- A test that all parts pass is passed by the whole statement. -/
theorem Stmt.self_of_all {p : Stmt → Bool} {s : Stmt} (h : s.all p = true) : p s = true := by
  cases s <;> simp_all [Stmt.all]

mutual

/-- The test that lets everything pass. -/
theorem Stmt.all_true : ∀ s : Stmt, s.all (fun _ => true) = true
  | .expr _ | .assign _ _ _ | .ret _ _ => rfl
  | .define _ _ _ body _ | .whileLoop _ body _ | .untilLoop body _ _ | .forLoop _ _ _ _ body _ => by
    simp [Stmt.all, Stmt.allOf_true body]
  | .branch _ body rest _ => by simp [Stmt.all, Stmt.allOf_true body, Arms.all_true rest]

theorem Stmt.allOf_true : ∀ body : List Stmt, Stmt.allOf (fun _ => true) body = true
  | [] => rfl
  | s :: rest => by simp [Stmt.allOf, Stmt.all_true s, Stmt.allOf_true rest]

theorem Arms.all_true : ∀ arms : Arms, arms.all (fun _ => true) = true
  | .done => rfl
  | .otherwise body => by simp [Arms.all, Stmt.allOf_true body]
  | .elseif _ body rest => by simp [Arms.all, Stmt.allOf_true body, Arms.all_true rest]

end

/-! ## Scalars -/

/-- The value is no subroutine. -/
def Value.IsScalar (v : Value) : Prop := v.kind ≠ .subroutine

theorem Value.isScalar_ofLiteral (v : Literal) : (ofLiteral v).IsScalar := by
  cases v <;> simp [ofLiteral, IsScalar, kind]

/-- A result, if there is one, is of the given sort. -/
def Yields {α : Type} (A : α → Prop) (r : Except Fault α) : Prop :=
  ∀ a, r = .ok a → A a

section Yields

variable {α β : Type} {A : α → Prop} {B : β → Prop}

theorem yields_ok {a : α} (h : A a) : Yields A (.ok a) := by
  rintro _ ⟨⟩
  exact h

theorem yields_error (fault : Fault) : Yields A (.error fault) := by
  rintro a ⟨⟩

/-- Every result has a property that everything has. -/
theorem yields_any (r : Except Fault α) : Yields (fun _ => True) r :=
  fun _ _ => trivial

/-- What a step yields is all that the next one has to deal with. -/
theorem Yields.bind {x : Except Fault α} {f : α → Except Fault β} (hx : Yields A x)
    (hf : ∀ a, A a → Yields B (f a)) : Yields B (x >>= f) := by
  cases x with
  | ok a => exact hf a (hx a rfl)
  | error fault => exact yields_error fault

end Yields

theorem yields_integer (n : Int64) : Yields Value.IsScalar (.ok (.integer n)) :=
  yields_ok (by simp [Value.IsScalar, Value.kind])

theorem yields_float (x : Float) : Yields Value.IsScalar (.ok (.float x)) :=
  yields_ok (by simp [Value.IsScalar, Value.kind])

theorem yields_boolean (b : Bool) : Yields Value.IsScalar (.ok (.boolean b)) :=
  yields_ok (by simp [Value.IsScalar, Value.kind])

theorem yields_text (s : String) : Yields Value.IsScalar (.ok (.text s)) :=
  yields_ok (by simp [Value.IsScalar, Value.kind])

namespace BinaryOp

variable (op : BinaryOp) (pos : Position)

theorem yields_fitted (a b : Int64) (result : Option Int64) :
    Yields Value.IsScalar (op.fitted a b pos result) := by
  cases result with
  | some n => exact yields_integer n
  | none => exact yields_error _

theorem yields_onIntegers (a b : Int64) : Yields Value.IsScalar (op.onIntegers a b pos) := by
  unfold onIntegers
  split
  · exact yields_error _
  · cases op with
    | divide =>
      dsimp only
      split
      · exact yields_fitted _ pos a b _
      · exact yields_float _
    | add | subtract | multiply | modulo | quotient => exact yields_fitted _ pos a b _
    | _ => exact yields_error _

theorem yields_onFloats (a b : Float) : Yields Value.IsScalar (op.onFloats a b pos) := by
  unfold onFloats
  split
  · exact yields_error _
  · cases op with
    | add | subtract | multiply | divide | modulo | quotient => exact yields_float _
    | _ => exact yields_error _

theorem yields_arithmetic (a b : Value) : Yields Value.IsScalar (op.arithmetic a b pos) := by
  unfold arithmetic
  split
  · exact yields_onIntegers op pos _ _
  · split
    · exact yields_text _
    · exact yields_error _
  · split
    · exact yields_onFloats op pos _ _
    · exact yields_error _

theorem yields_floatPower (a b : Value) : Yields Value.IsScalar (floatPower a b pos) := by
  unfold floatPower
  split
  · dsimp only
    split
    · split
      · unfold Value.ofWhole
        split
        · exact yields_integer _
        · exact yields_float _
      · exact yields_float _
    · exact yields_error _
  · exact yields_error _

theorem yields_raise (a b : Value) : Yields Value.IsScalar (raise a b pos) := by
  unfold raise
  split
  · split
    · exact yields_fitted _ pos _ _ _
    · exact yields_floatPower pos _ _
  · exact yields_floatPower pos _ _

theorem yields_compare (c : Comparison) (a b : Value) :
    Yields Value.IsScalar (c.apply a b pos) := by
  unfold Comparison.apply
  split
  · exact yields_boolean _
  · exact yields_boolean _
  · split
    · exact yields_boolean _
    · exact yields_error _
  · split
    · split <;> exact yields_boolean _
    · exact yields_error _

theorem yields_logic (a b : Value) : Yields Value.IsScalar (op.logic a b pos) := by
  refine (yields_any _).bind fun x _ => ?_
  refine (yields_any _).bind fun y _ => ?_
  cases op with
  | conj | disj => exact yields_boolean _
  | _ => exact yields_error _

/-- Operators give scalars. -/
theorem yields_scalar (a b : Value) : Yields Value.IsScalar (op.apply a b pos) := by
  cases op with
  | power => exact yields_raise pos a b
  | compare c => exact yields_compare pos c a b
  | conj | disj => exact yields_logic _ pos a b
  | _ => exact yields_arithmetic _ pos a b

end BinaryOp

theorem UnaryOp.yields_scalar (op : UnaryOp) (v : Value) (pos : Position) :
    Yields Value.IsScalar (op.apply v pos) := by
  unfold UnaryOp.apply
  split
  · exact yields_integer _
  · exact yields_float _
  · split
    · exact yields_integer _
    · exact yields_error _
  · exact yields_float _
  · cases v.toBoolean _ pos with
    | ok b => exact yields_boolean _
    | error fault => exact yields_error _
  · exact yields_error _

namespace Native

variable (args : List Value) (pos : Position)

/-- A conversion gives scalars if its results are. -/
theorem yields_converted (v : Value) (target : Kind) {result : Option Value}
    (h : ∀ w ∈ result, w.IsScalar) : Yields Value.IsScalar (converted v target pos result) := by
  cases result with
  | some w => exact yields_ok (h w rfl)
  | none => exact yields_error _

theorem yields_toText : Yields Value.IsScalar (toText args pos) :=
  (yields_any _).bind fun _ _ => yields_text _

theorem yields_toInteger : Yields Value.IsScalar (toInteger args pos) := by
  have hread : ∀ o : Option Int64, ∀ w ∈ o.map Value.integer, w.IsScalar := by
    intro o w hw
    obtain ⟨n, -, rfl⟩ := Option.map_eq_some_iff.1 hw
    simp [Value.IsScalar, Value.kind]
  refine (yields_any _).bind fun v _ => ?_
  cases v with
  | integer n => exact yields_integer _
  | float x => exact yields_converted pos _ _ (hread _)
  | boolean b => exact yields_integer _
  | text s => exact yields_converted pos _ _ (hread _)
  | callable c => exact yields_error _

theorem yields_toFloat : Yields Value.IsScalar (toFloat args pos) := by
  refine (yields_any _).bind fun v _ => ?_
  cases v with
  | integer n => exact yields_float _
  | float x => exact yields_float _
  | boolean b => exact yields_float _
  | text s =>
    refine yields_converted pos _ _ fun w hw => ?_
    obtain ⟨x, -, rfl⟩ := Option.map_eq_some_iff.1 hw
    simp [Value.IsScalar, Value.kind]
  | callable c => exact yields_error _

theorem yields_toBoolean : Yields Value.IsScalar (toBoolean args pos) := by
  refine (yields_any _).bind fun v _ => ?_
  cases v with
  | integer n => exact yields_boolean _
  | float x => exact yields_boolean _
  | boolean b => exact yields_boolean _
  | text s =>
    refine yields_converted pos _ _ fun w hw => ?_
    obtain ⟨b, -, rfl⟩ := Option.map_eq_some_iff.1 hw
    simp [Value.IsScalar, Value.kind]
  | callable c => exact yields_error _

theorem yields_codeOf : Yields Value.IsScalar (codeOf args pos) := by
  refine (yields_any _).bind fun v _ => ?_
  cases v with
  | text s =>
    dsimp only
    split
    · exact yields_integer _
    · exact yields_error _
  | _ => exact yields_error _

theorem yields_ofCode : Yields Value.IsScalar (ofCode args pos) := by
  refine (yields_any _).bind fun v _ => ?_
  cases v with
  | integer n =>
    dsimp only
    split
    · exact yields_text _
    · exact yields_error _
  | _ => exact yields_error _

end Native

/-! ## Values and tables -/

variable {p : Stmt → Bool}

/-- The body of the value passes the test, if the value is a subroutine of the program. -/
def Value.Meets (p : Stmt → Bool) : Value → Prop
  | .callable (.user s) => Stmt.allOf p s.body = true
  | _ => True

/-- Scalars have no body that could fail the test. -/
theorem Value.IsScalar.meets {v : Value} (h : v.IsScalar) : v.Meets p := by
  cases v with
  | callable c => exact absurd rfl h
  | _ => trivial

/-- All values of the table pass the test. -/
def Table.Meets (p : Stmt → Bool) (t : Table) : Prop :=
  ∀ slot ∈ t.slots, ∀ v, slot.value = some v → v.Meets p

namespace Table

theorem meets_empty : empty.Meets p := carries_empty

end Table

/-- The table of a call meets the test if the arguments do. -/
theorem Eval.meets_bindParams (params : List String) {args : List Value}
    (hargs : ∀ v ∈ args, v.Meets p) : (bindParams params args).Meets p :=
  carries_bindParams params hargs

/-- All subroutines that the machine holds pass the test throughout. -/
def Machine.Meets {κ : Type} (p : Stmt → Bool) (m : Machine κ) : Prop :=
  ∀ s, m.Holds s → Stmt.allOf p s.body = true

/-- What the tables of a machine carry is a matter of the subroutines that the machine holds, if it
does not concern other values. -/
theorem Machine.carries_iff_holds {κ : Type} {V : Value → Prop}
    (hV : ∀ v, (∀ s, v ≠ .callable (.user s)) → V v) (m : Machine κ) :
    m.Carries V ↔ ∀ s, m.Holds s → V (.callable (.user s)) := by
  constructor
  · rintro hm s ⟨t, rfl | ht, slot, hslot, hvalue⟩
    · exact hm.globals slot hslot _ hvalue
    · exact hm.scope t ht slot hslot _ hvalue
  · intro h
    have htable : ∀ t, t = m.globals ∨ m.scope = some t → t.Carries V := by
      intro t ht slot hslot v hv
      by_cases huser : ∃ s, v = .callable (.user s)
      · obtain ⟨s, rfl⟩ := huser
        exact h s ⟨t, ht, slot, hslot, hv⟩
      · exact hV v (not_exists.1 huser)
    exact ⟨htable _ (Or.inl rfl), fun t ht => htable t (Or.inr ht)⟩

/-- Only subroutines of a program have a body to be tested. -/
theorem Value.meets_of_ne {v : Value} (h : ∀ s, v ≠ .callable (.user s)) : v.Meets p :=
  match v with
  | .callable (.user s) => absurd rfl (h s)
  | .callable (.native _) | .integer _ | .float _ | .boolean _ | .text _ => trivial

/-- To meet a test is to carry values that meet it only. -/
theorem Machine.meets_iff_carries {κ : Type} (m : Machine κ) :
    m.Meets p ↔ m.Carries (Value.Meets p) :=
  (m.carries_iff_holds fun _ => Value.meets_of_ne).symm

/-- A machine passes a test through its tables. -/
theorem Machine.meets_iff {κ : Type} (m : Machine κ) :
    m.Meets p ↔ m.globals.Meets p ∧ ∀ t, m.scope = some t → t.Meets p :=
  m.meets_iff_carries.trans ⟨fun h => ⟨h.globals, h.scope⟩, fun h => ⟨h.1, h.2⟩⟩

end Primer
