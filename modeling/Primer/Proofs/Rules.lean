import Primer.Proofs.Clean
import Primer.Proofs.Footprint.Value
import Primer.Proofs.Outcome

/-!
# Rules for what computations are composed of

Properties of runs are proved by going through the evaluator, and most of the way is the same for
all of them: what holds of two computations has to hold of the one after the other. `Rules` are the
properties that admit this, of a computation or of two of them side by side, together with what is
known of results. They then hold of every combinator of control flow whose parts they hold of.

A fault that a computation raises itself is one that a program is to blame for: an expression may
end without a value only if it is a call, which is part of what is known of its result
(`Eval.Given`).
-/

set_option autoImplicit false

namespace Primer

/-! ## Relations that hold of computations in a row -/

/-- A relation between computations that holds of the simplest ones, and of two in a row if it holds
of each. The results of both sides are the same, and have the given property. -/
structure Rules (κ κ' : Type) where
  Rel {α : Type} (A : α → Prop) (x : Exec κ α) (x' : Exec κ' α) : Prop
  pure {α : Type} {A : α → Prop} {a : α} (h : A a) : Rel A (pure a) (pure a)
  fail {α : Type} {A : α → Prop} {fault : Fault} (h : fault.cause.isInternal = false) :
    Rel A (Exec.fail fault) (Exec.fail fault)
  exhausted {α : Type} {A : α → Prop} : Rel A Exec.exhausted Exec.exhausted
  bind {α β : Type} {A : α → Prop} {B : β → Prop} {x : Exec κ α} {x' : Exec κ' α}
    {f : α → Exec κ β} {f' : α → Exec κ' β} (hx : Rel A x x')
    (hf : ∀ a, A a → Rel B (f a) (f' a)) : Rel B (x >>= f) (x' >>= f')

/-- The bodies in the arms. -/
def Arms.bodies : Arms → List (List Stmt)
  | .done => []
  | .otherwise body => [body]
  | .elseif _ body rest => body :: rest.bodies

/-- The conditions of the arms. -/
def Arms.conditions : Arms → List Expr
  | .done | .otherwise _ => []
  | .elseif c _ rest => c :: rest.conditions

/-- What is known of the result of an expression: its value is of a sort, and if there is none, the
expression is a call. -/
def Eval.Given (V : Value → Prop) (e : Expr) (v : Option Value) : Prop :=
  (∀ w ∈ v, V w) ∧ (v = none → (missingValue e).isInternal = false)

theorem Eval.given_some {V : Value → Prop} {v : Value} (h : V v) (e : Expr) :
    Given V e (some v) := by
  refine ⟨fun w hw => ?_, nofun⟩
  obtain rfl := Option.some.inj hw
  exact h

namespace Rules

open Eval

variable {κ κ' : Type} (R : Rules κ κ') {α β : Type} {A : α → Prop} {B : β → Prop}
  {V : Value → Prop}

/-- A clean result is related to itself. -/
theorem ofExcept {r : Except Fault α} (hr : Yields A r) (hclean : Clean r) :
    R.Rel A (Exec.ofExcept r) (Exec.ofExcept r) := by
  cases r with
  | ok a => exact R.pure (hr a rfl)
  | error fault => exact R.fail (hclean fault rfl)

theorem map {x : Exec κ α} {x' : Exec κ' α} (hx : R.Rel A x x') {f : α → β}
    (hf : ∀ a, A a → B (f a)) : R.Rel B (f <$> x) (f <$> x') :=
  R.bind hx fun a ha => R.pure (hf a ha)

/-! ## Values that are asked for -/

section Values

variable {eval : Expr → Exec κ (Option Value)} {eval' : Expr → Exec κ' (Option Value)}

/-- Values that are required are related as the values are. -/
theorem required {e : Expr} {x : Exec κ (Option Value)} {x' : Exec κ' (Option Value)}
    (hx : R.Rel (Given V e) x x') : R.Rel V (required e x) (required e x') := by
  refine R.bind hx fun v hv => ?_
  cases v with
  | some w => exact R.pure (hv.1 w rfl)
  | none => exact R.fail (hv.2 rfl)

theorem each {es : List Expr} (h : ∀ e ∈ es, R.Rel (Given V e) (eval e) (eval' e)) :
    R.Rel (fun vs => ∀ v ∈ vs, V v) (each eval es) (each eval' es) := by
  induction es with
  | nil => exact R.pure fun _ hv => absurd hv List.not_mem_nil
  | cons e es ih =>
    rw [List.forall_mem_cons] at h
    refine R.bind (R.required h.1) fun v hv => ?_
    refine R.bind (ih h.2) fun vs hvs => ?_
    exact R.pure (List.forall_mem_cons.2 ⟨hv, hvs⟩)

theorem condition (subject : String) {e : Expr} {x : Exec κ (Option Value)}
    {x' : Exec κ' (Option Value)} (hx : R.Rel (Given V e) x x') :
    R.Rel (fun _ => True) (condition subject e x) (condition subject e x') :=
  R.bind (R.required hx) fun v _ => R.ofExcept (yields_any _) (v.clean_toBoolean _ _)

theorem bound (subject : String) {e : Expr} {x : Exec κ (Option Value)}
    {x' : Exec κ' (Option Value)} (hx : R.Rel (Given V e) x x') :
    R.Rel (fun _ => True) (bound subject e x) (bound subject e x') :=
  R.bind (R.required hx) fun v _ => R.ofExcept (yields_any _) (v.clean_toInteger _ _)

end Values

/-! ## Statements in a row, and loops -/

section Flows

variable {F : Flow → Prop} (hnext : F (.next none))

include hnext

section Blocks

variable {run : Stmt → Exec κ Flow} {run' : Stmt → Exec κ' Flow}

/-- Blocks are related if their statements are. -/
theorem block {body : List Stmt} (h : ∀ s ∈ body, R.Rel F (run s) (run' s)) :
    R.Rel F (block run body) (block run' body) := by
  induction body with
  | nil => exact R.pure hnext
  | cons s rest ih =>
    rw [List.forall_mem_cons] at h
    refine R.bind h.1 fun flow hflow => ?_
    cases flow with
    | next v => exact ih h.2
    | returned v => exact R.pure hflow

/-- Arms are related if their conditions and their bodies are. -/
theorem arms {eval : Expr → Exec κ (Option Value)} {eval' : Expr → Exec κ' (Option Value)}
    {rest : Arms}
    (hconditions : ∀ c ∈ rest.conditions, R.Rel (fun _ => True)
      (Eval.condition "'if' condition" c (eval c)) (Eval.condition "'if' condition" c (eval' c)))
    (hbodies : ∀ body ∈ rest.bodies, R.Rel F (Eval.block run body) (Eval.block run' body)) :
    R.Rel F (arms eval run rest) (arms eval' run' rest) := by
  cases rest with
  | done => exact R.pure hnext
  | otherwise body => exact hbodies body List.mem_cons_self
  | elseif c body rest =>
    simp only [Arms.conditions, List.forall_mem_cons] at hconditions
    simp only [Arms.bodies, List.forall_mem_cons] at hbodies
    refine R.bind hconditions.1 fun b _ => ?_
    cases b with
    | true => exact hbodies.1
    | false => exact arms hconditions.2 hbodies.2

end Blocks

section Loops

variable {test : Exec κ Bool} {test' : Exec κ' Bool} {body : Exec κ Flow} {body' : Exec κ' Flow}

/-- Loops with a test before are related if test and body are. -/
theorem whileLoop (htest : R.Rel (fun _ => True) test test') (hbody : R.Rel F body body')
    (n : Nat) : R.Rel F (whileLoop test body n) (whileLoop test' body' n) := by
  induction n with
  | zero => exact R.exhausted
  | succ n ih =>
    refine R.bind htest fun b _ => ?_
    cases b with
    | false => exact R.pure hnext
    | true =>
      refine R.bind hbody fun flow hflow => ?_
      cases flow with
      | next v => exact ih
      | returned v => exact R.pure hflow

theorem untilLoop (hbody : R.Rel F body body') (htest : R.Rel (fun _ => True) test test')
    (n : Nat) : R.Rel F (untilLoop body test n) (untilLoop body' test' n) := by
  induction n with
  | zero => exact R.exhausted
  | succ n ih =>
    refine R.bind hbody fun flow hflow => ?_
    cases flow with
    | returned v => exact R.pure hflow
    | next v =>
      refine R.bind htest fun b _ => ?_
      cases b with
      | true => exact R.pure hnext
      | false => exact ih

/-- Counting loops are related if their passes are. -/
theorem countLoop {pass : Int64 → Exec κ Flow} {pass' : Int64 → Exec κ' Flow}
    (hpass : ∀ i, R.Rel F (pass i) (pass' i)) (last step : Int64) (n : Nat) :
    ∀ counter, R.Rel F (countLoop pass last step n counter)
      (countLoop pass' last step n counter) := by
  induction n with
  | zero => exact fun _ => R.exhausted
  | succ n ih =>
    intro counter
    refine R.bind (hpass counter) fun flow hflow => ?_
    cases flow with
    | returned v => exact R.pure hflow
    | next v =>
      dsimp only
      split
      · exact ih _
      · exact R.pure hnext

end Loops

end Flows

end Rules

end Primer
