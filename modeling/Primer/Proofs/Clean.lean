import Primer.Machine
import Primer.Native.Character
import Primer.Native.Draw
import Primer.Operator.Apply

/-!
# Faults that a program is to blame for

Two causes stand for a slip of the evaluator and not of a program: a statement where a value is
asked for, and an expression without a value that is no call. Operators, conversions, draws and
look-ups have causes of their own.
-/

set_option autoImplicit false

namespace Primer

/-- Whether the cause is a slip of the evaluator. -/
def Cause.isInternal : Cause → Bool
  | .noValue | .statementAsValue => true
  | _ => false

variable {κ α β : Type}

/-- The fault of a result, if it has one, is not internal. -/
def Clean (r : Except Fault α) : Prop :=
  ∀ fault, r = .error fault → fault.cause.isInternal = false

theorem clean_ok (a : α) : Clean (.ok a : Except Fault α) := by
  rintro _ ⟨⟩

/-- A fault is clean if its cause is no slip of the evaluator. -/
theorem clean_error {cause : Cause} (h : cause.isInternal = false) (pos : Position) :
    Clean (.error ⟨cause, pos⟩ : Except Fault α) := by
  rintro _ ⟨⟩
  exact h

/-- Clean steps in a row are clean. -/
theorem Clean.bind {x : Except Fault α} {f : α → Except Fault β} (hx : Clean x)
    (hf : ∀ a, Clean (f a)) : Clean (x >>= f) := by
  cases x with
  | ok a => exact hf a
  | error fault =>
    rintro _ ⟨⟩
    exact hx fault rfl

/-! ## Operators -/

/-- That a value is no Boolean is no slip of the evaluator. -/
theorem Value.clean_toBoolean (v : Value) (subject : String) (pos : Position) :
    Clean (v.toBoolean subject pos) := by
  cases v with
  | boolean b => exact clean_ok b
  | _ => exact clean_error rfl pos

theorem Value.clean_toInteger (v : Value) (subject : String) (pos : Position) :
    Clean (v.toInteger subject pos) := by
  cases v with
  | integer n => exact clean_ok n
  | _ => exact clean_error rfl pos

namespace BinaryOp

variable (op : BinaryOp) (pos : Position)

theorem isInternal_zeroDivisor : op.zeroDivisor.isInternal = false := by
  cases op <;> rfl

/-- That a result does not fit is no slip of the evaluator. -/
theorem clean_fitted (a b : Int64) (result : Option Int64) : Clean (op.fitted a b pos result) := by
  cases result with
  | some n => exact clean_ok _
  | none => exact clean_error rfl pos

theorem clean_onIntegers (a b : Int64) : Clean (op.onIntegers a b pos) := by
  unfold onIntegers
  split
  · exact clean_error op.isInternal_zeroDivisor pos
  · cases op with
    | divide =>
      dsimp only
      split
      · exact clean_fitted _ pos a b _
      · exact clean_ok _
    | add | subtract | multiply | modulo | quotient => exact clean_fitted _ pos a b _
    | _ => exact clean_error rfl pos

theorem clean_onFloats (a b : Float) : Clean (op.onFloats a b pos) := by
  unfold onFloats
  split
  · exact clean_error op.isInternal_zeroDivisor pos
  · cases op with
    | add | subtract | multiply | divide | modulo | quotient => exact clean_ok _
    | _ => exact clean_error rfl pos

theorem clean_arithmetic (a b : Value) : Clean (op.arithmetic a b pos) := by
  unfold arithmetic
  split
  · exact clean_onIntegers op pos _ _
  · split
    · exact clean_ok _
    · exact clean_error rfl pos
  · split
    · exact clean_onFloats op pos _ _
    · exact clean_error rfl pos

theorem clean_floatPower (a b : Value) : Clean (floatPower a b pos) := by
  unfold floatPower
  split
  · dsimp only
    split
    · split <;> exact clean_ok _
    · exact clean_error rfl pos
  · exact clean_error rfl pos

theorem clean_raise (a b : Value) : Clean (raise a b pos) := by
  unfold raise
  split
  · split
    · exact clean_fitted _ pos _ _ _
    · exact clean_floatPower pos _ _
  · exact clean_floatPower pos _ _

theorem clean_compare (c : Comparison) (a b : Value) : Clean (c.apply a b pos) := by
  unfold Comparison.apply
  split
  · exact clean_ok _
  · exact clean_ok _
  · split
    · exact clean_ok _
    · exact clean_error rfl pos
  · split
    · split <;> exact clean_ok _
    · exact clean_error rfl pos

theorem clean_logic (a b : Value) : Clean (op.logic a b pos) := by
  refine (a.clean_toBoolean _ pos).bind fun x => ?_
  refine (b.clean_toBoolean _ pos).bind fun y => ?_
  cases op with
  | conj | disj => exact clean_ok _
  | _ => exact clean_error rfl pos

/-- All operators are clean, whatever their operands. -/
theorem clean_apply (a b : Value) : Clean (op.apply a b pos) := by
  cases op with
  | power => exact clean_raise pos a b
  | compare c => exact clean_compare pos c a b
  | conj | disj => exact clean_logic _ pos a b
  | _ => exact clean_arithmetic _ pos a b

end BinaryOp

theorem UnaryOp.clean_apply (op : UnaryOp) (v : Value) (pos : Position) :
    Clean (op.apply v pos) := by
  unfold UnaryOp.apply
  split
  · exact clean_ok _
  · exact clean_ok _
  · split
    · exact clean_ok _
    · exact clean_error rfl pos
  · exact clean_ok _
  · have htruth := v.clean_toBoolean (operandOf UnaryOp.negation.text) pos
    generalize v.toBoolean _ pos = r at htruth ⊢
    cases r with
    | ok b => exact clean_ok _
    | error fault =>
      rintro _ ⟨⟩
      exact htruth fault rfl
  · exact clean_error rfl pos

/-! ## What the language provides -/

/-- That there are too many arguments or too few is no slip of the evaluator. -/
theorem clean_checkArity (name : String) (least most found : Nat) (pos : Position) :
    Clean (checkArity name least most found pos) := by
  unfold checkArity
  split
  · exact clean_ok _
  · exact clean_error rfl pos

namespace Native

variable (args : List Value) (pos : Position)

theorem clean_single (native : Native) : Clean (single native args pos) := by
  unfold single
  split
  · exact clean_ok _
  · exact clean_error rfl pos

theorem clean_converted (v : Value) (target : Kind) (result : Option Value) :
    Clean (converted v target pos result) := by
  cases result with
  | some w => exact clean_ok w
  | none => exact clean_error rfl pos

theorem clean_toText : Clean (toText args pos) :=
  (clean_single args pos .str).bind fun _ => clean_ok _

theorem clean_toInteger : Clean (toInteger args pos) := by
  refine (clean_single args pos .int).bind fun v => ?_
  cases v with
  | integer n => exact clean_ok _
  | float x => exact clean_converted pos _ _ _
  | boolean b => exact clean_ok _
  | text s => exact clean_converted pos _ _ _
  | callable c => exact clean_error rfl pos

theorem clean_toFloat : Clean (toFloat args pos) := by
  refine (clean_single args pos .float).bind fun v => ?_
  cases v with
  | integer n => exact clean_ok _
  | float x => exact clean_ok _
  | boolean b => exact clean_ok _
  | text s => exact clean_converted pos _ _ _
  | callable c => exact clean_error rfl pos

theorem clean_toBoolean : Clean (toBoolean args pos) := by
  refine (clean_single args pos .bool).bind fun v => ?_
  cases v with
  | integer n => exact clean_ok _
  | float x => exact clean_ok _
  | boolean b => exact clean_ok _
  | text s => exact clean_converted pos _ _ _
  | callable c => exact clean_error rfl pos

theorem clean_codeOf : Clean (codeOf args pos) := by
  refine (clean_single args pos .asc).bind fun v => ?_
  cases v with
  | text s =>
    dsimp only
    split
    · exact clean_ok _
    · exact clean_error rfl pos
  | _ => exact clean_error rfl pos

theorem clean_ofCode : Clean (ofCode args pos) := by
  refine (clean_single args pos .chr).bind fun v => ?_
  cases v with
  | integer n =>
    dsimp only
    split
    · exact clean_ok _
    · exact clean_error rfl pos
  | _ => exact clean_error rfl pos

theorem clean_drawBound (v : Value) : Clean (drawBound v pos) := by
  unfold drawBound
  split
  · exact clean_ok _
  · exact clean_error rfl pos

/-- That a range is empty or has no numbers is no slip of the evaluator. -/
theorem clean_draw (draws : Draws) : Clean (draw draws args pos) := by
  unfold draw
  split
  · split
    · exact clean_error rfl pos
    · exact clean_ok _
  · refine (clean_drawBound pos _).bind fun a => ?_
    refine (clean_drawBound pos _).bind fun b => ?_
    split
    · exact clean_error rfl pos
    · split
      · exact clean_ok _
      · split <;> exact clean_ok _
  · exact clean_error rfl pos

end Native

/-! ## Names and tables -/

namespace Machine

/-- That a name is not declared is no slip of the evaluator. -/
theorem clean_lookup (m : Machine κ) (name : String) (pos : Position) :
    Clean (m.lookup name pos) := by
  unfold Machine.lookup
  split
  · exact clean_ok _
  · split
    · exact clean_ok _
    · split
      · exact clean_ok _
      · exact clean_error rfl pos

end Machine

end Primer
