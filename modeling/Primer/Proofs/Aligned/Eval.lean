import Primer.Eval.TopLevel
import Primer.Proofs.Aligned.Value

/-!
# Runs that differ in positions only

Positions never steer a run. A computation is aligned with another if from aligned machines both
end in the same way: with related results, with faults of the same cause, in the same panic, or out
of fuel. The evaluator takes aligned syntax to aligned computations (`Eval.aligned_eval`), and no
fault of a run comes from the end of the input.
-/

set_option autoImplicit false

namespace Primer

variable {R Q : Position → Position → Prop}

/-! ## Tables -/

/-- The slots have the same name and seal. -/
structure Slot.Aligned (R : Position → Position → Prop) (s t : Slot) : Prop where
  name : s.name = t.name
  value : Option.Rel (Value.Aligned R) s.value t.value
  isSealed : s.isSealed = t.isSealed

/-- The tables have aligned slots in the same order. -/
def Table.Aligned (R : Position → Position → Prop) (t u : Table) : Prop :=
  List.Forall₂ (Slot.Aligned R) t.slots u.slots

namespace Table

theorem aligned_empty : Table.Aligned R empty empty := .nil

theorem aligned_refl (hR : ∀ p, R p p) (t : Table) : t.Aligned R t := by
  refine List.forall₂_same.2 fun slot _ => ⟨rfl, ?_, rfl⟩
  cases slot.value with
  | none => exact .none
  | some v => exact .some (Value.aligned_refl hR v)

/-- Of aligned tables, both have a slot of the name or neither has. -/
theorem Aligned.slot? {t u : Table} (h : t.Aligned R u) (name : String) :
    Option.Rel (Slot.Aligned R) (t.slot? name) (u.slot? name) := by
  obtain ⟨ss⟩ := t
  obtain ⟨us⟩ := u
  change List.Forall₂ (Slot.Aligned R) ss us at h
  show Option.Rel (Slot.Aligned R) (ss.find? _) (us.find? _)
  induction h with
  | nil => exact .none
  | cons hs _ ih =>
    rw [List.find?_cons, List.find?_cons, hs.name]
    split
    · exact .some hs
    · exact ih

theorem Aligned.slot {t u : Table} (h : t.Aligned R u) (name : String) :
    (t.slot name).Aligned R (u.slot name) := by
  have hslot := h.slot? name
  unfold Table.slot
  generalize t.slot? name = x, u.slot? name = y at hslot ⊢
  cases hslot with
  | some hs => exact hs
  | none => exact ⟨rfl, .none, rfl⟩

theorem Aligned.put {t u : Table} {s s' : Slot} (h : t.Aligned R u) (hs : s.Aligned R s') :
    (t.put s).Aligned R (u.put s') := by
  obtain ⟨ss⟩ := t
  obtain ⟨us⟩ := u
  change List.Forall₂ (Slot.Aligned R) ss us at h
  show List.Forall₂ (Slot.Aligned R) (putSlot s ss) (putSlot s' us)
  induction h with
  | nil => exact .cons hs .nil
  | cons hx hrest ih =>
    rw [putSlot, putSlot, hx.name, hs.name]
    split
    · exact .cons hs hrest
    · exact .cons hx ih

/-- A name has aligned values in aligned tables, or none in both. -/
theorem Aligned.lookup {t u : Table} (h : t.Aligned R u) (name : String) :
    Option.Rel (Value.Aligned R) (t.lookup name) (u.lookup name) := by
  have hslot := h.slot? name
  unfold Table.lookup
  generalize t.slot? name = x, u.slot? name = y at hslot ⊢
  cases hslot with
  | some hs => exact hs.value
  | none => exact .none

/-- An assignment is allowed by both tables or by neither, and leaves them aligned. -/
theorem Aligned.assign {t u : Table} (h : t.Aligned R u) (name : String) {v w : Value}
    (hv : v.Aligned R w) (sealing : Bool) {p q : Position} (hp : R p q) :
    ResultAligned R (Table.Aligned R) (t.assign name v sealing p) (u.assign name w sealing q) := by
  have hslot := h.slot name
  unfold Table.assign
  generalize t.slot name = x, u.slot name = y at hslot ⊢
  obtain ⟨xname, xvalue, xsealed⟩ := x
  obtain ⟨yname, yvalue, ysealed⟩ := y
  obtain ⟨rfl, -, rfl⟩ := hslot
  cases xsealed with
  | true => exact .error ⟨rfl, hp, rfl⟩
  | false => exact .ok (h.put ⟨rfl, .some hv, rfl⟩)

end Table

/-! ## Machines and computations -/

/-- The machines differ only in the positions that subroutines keep. -/
structure Machine.Aligned {κ : Type} (R : Position → Position → Prop) (m m' : Machine κ) :
    Prop where
  globals : m.globals.Aligned R m'.globals
  scope : Option.Rel (Table.Aligned R) m.scope m'.scope
  depth : m.depth = m'.depth
  echo : m.echo = m'.echo
  console : m.console = m'.console
  draws : m.draws = m'.draws

/-- The machines are equal up to the positions in subroutines. -/
abbrev Machine.Alike {κ : Type} (m m' : Machine κ) : Prop := m.Aligned (fun _ _ => True) m'

/-- The computations ended in the same way. -/
inductive Outcome.Aligned {κ α : Type} (R : Position → Position → Prop) (A : α → α → Prop) :
    Outcome κ α → Outcome κ α → Prop
  | done {a b : α} {m m' : Machine κ} (hab : A a b) (hm : m.Aligned R m') :
      Aligned R A (.done a m) (.done b m')
  | failed {f g : Fault} {m m' : Machine κ} (hfault : f.Aligned R g) (hm : m.Aligned R m') :
      Aligned R A (.failed f m) (.failed g m')
  | panicked (least most : Float) (console : κ) :
      Aligned R A (.panicked least most console) (.panicked least most console)
  | outOfFuel : Aligned R A .outOfFuel .outOfFuel

/-- From aligned machines the computations end in the same way. -/
def Exec.Aligned {κ α : Type} (R : Position → Position → Prop) (A : α → α → Prop)
    (x y : Exec κ α) : Prop :=
  ∀ m m' : Machine κ, m.Aligned R m' → (x m).Aligned R A (y m')

/-- The statements ended in the same way. -/
inductive Flow.Aligned (R : Position → Position → Prop) : Flow → Flow → Prop
  | next {v w : Option Value} (h : Option.Rel (Value.Aligned R) v w) : Aligned R (.next v) (.next w)
  | returned {v w : Option Value} (h : Option.Rel (Value.Aligned R) v w) :
      Aligned R (.returned v) (.returned w)

theorem Flow.Aligned.value {f g : Flow} (h : f.Aligned R g) :
    Option.Rel (Value.Aligned R) f.value g.value := by
  cases h <;> assumption

namespace Exec

variable {κ α β : Type} {A : α → α → Prop} {B : β → β → Prop}

theorem aligned_pure {a b : α} (h : A a b) :
    Exec.Aligned R A (pure a : Exec κ α) (pure b) :=
  fun _ _ hm => .done h hm

/-- Aligned computations stay aligned in a row. -/
theorem Aligned.bind {x y : Exec κ α} {f g : α → Exec κ β} (hx : x.Aligned R A y)
    (hf : ∀ a b, A a b → (f a).Aligned R B (g b)) : (x >>= f).Aligned R B (y >>= g) := by
  intro m m' hm
  have houtcome := hx m m' hm
  simp only [Bind.bind]
  cases hxm : x m <;> cases hym : y m' <;> rw [hxm, hym] at houtcome
  all_goals cases houtcome
  · exact hf _ _ ‹_› _ _ ‹_›
  · exact .failed ‹_› ‹_›
  · exact .panicked _ _ _
  · exact .outOfFuel

theorem Aligned.map {x y : Exec κ α} {f g : α → β} (hx : x.Aligned R A y)
    (hf : ∀ a b, A a b → B (f a) (g b)) : (f <$> x).Aligned R B (g <$> y) :=
  hx.bind fun a b hab => aligned_pure (hf a b hab)

theorem aligned_exhausted : Exec.Aligned R A (exhausted : Exec κ α) exhausted :=
  fun _ _ _ => .outOfFuel

theorem aligned_fail {f g : Fault} (h : f.Aligned R g) :
    Exec.Aligned R A (fail f : Exec κ α) (fail g) :=
  fun _ _ hm => .failed h hm

theorem aligned_ofExcept {r r' : Except Fault α} (h : ResultAligned R A r r') :
    Exec.Aligned R A (ofExcept r : Exec κ α) (ofExcept r') := by
  intro m m' hm
  cases h with
  | ok hab => exact .done hab hm
  | error hfault => exact .failed hfault hm

end Exec

namespace Machine

variable {κ : Type}

theorem aligned_refl (hR : ∀ p, R p p) (m : Machine κ) : m.Aligned R m := by
  refine ⟨Table.aligned_refl hR m.globals, ?_, rfl, rfl, rfl, rfl⟩
  cases m.scope with
  | none => exact .none
  | some t => exact .some (Table.aligned_refl hR t)

/-- A name means the same to both machines, up to positions, or is undeclared for both. -/
theorem Aligned.lookup {m m' : Machine κ} (h : m.Aligned R m') (name : String) {p q : Position}
    (hp : R p q) :
    ResultAligned R (Value.Aligned R) (m.lookup name p) (m'.lookup name q) := by
  have hscope : Option.Rel (Value.Aligned R) (m.scope.bind (·.lookup name))
      (m'.scope.bind (·.lookup name)) := by
    have hscope := h.scope
    generalize m.scope = s, m'.scope = s' at hscope ⊢
    cases hscope with
    | some ht => exact ht.lookup name
    | none => exact .none
  have hglobal := h.globals.lookup name
  -- the active call comes first, then the global names, then the native ones
  unfold Machine.lookup
  generalize m.scope.bind (·.lookup name) = x, m'.scope.bind (·.lookup name) = x' at hscope ⊢
  generalize m.globals.lookup name = y, m'.globals.lookup name = y' at hglobal ⊢
  cases hscope with
  | some hv => exact .ok hv
  | none =>
    dsimp only
    cases hglobal with
    | some hv => exact .ok hv
    | none =>
      dsimp only
      split
      · exact .ok (.native _)
      · exact .error ⟨rfl, hp, rfl⟩

/-- Writing a name keeps machines aligned, whether it is written or refused. -/
theorem aligned_assign (target : Target) {v w : Value} (hv : v.Aligned R w) {p q : Position}
    (hp : R p q) :
    Exec.Aligned R Eq (assign target v p : Exec κ Unit) (assign target w q) := by
  intro m m' hm
  obtain ⟨globals, scope, depth, echo, console, draws⟩ := m
  obtain ⟨globals', scope', depth', echo', console', draws'⟩ := m'
  obtain ⟨name, sealing, isGlobal⟩ := target
  have hscope : Option.Rel (Table.Aligned R) scope scope' := hm.scope
  have hglobals := hm.globals.assign name hv sealing hp
  cases hscope with
  | none =>
    simp only [assign]
    generalize globals.assign name v sealing p = r, globals'.assign name w sealing q = r'
      at hglobals ⊢
    cases hglobals with
    | ok ht => exact .done rfl ⟨ht, hm.scope, hm.depth, hm.echo, hm.console, hm.draws⟩
    | error hfault => exact .failed hfault hm
  | @some t u ht =>
    -- in a call, the qualifier decides which table is written
    cases isGlobal with
    | true =>
      simp only [assign]
      generalize globals.assign name v sealing p = r, globals'.assign name w sealing q = r'
        at hglobals ⊢
      cases hglobals with
      | ok ht => exact .done rfl ⟨ht, hm.scope, hm.depth, hm.echo, hm.console, hm.draws⟩
      | error hfault => exact .failed hfault hm
    | false =>
      have hassign := ht.assign name hv sealing hp
      simp only [assign]
      generalize t.assign name v sealing p = r, u.assign name w sealing q = r' at hassign ⊢
      cases hassign with
      | ok ht' => exact .done rfl ⟨hm.globals, .some ht', hm.depth, hm.echo, hm.console, hm.draws⟩
      | error hfault => exact .failed hfault hm

/-- A line is shown on the same console, so both show it or fail. -/
theorem aligned_writeLine [Console κ] (s : String) {p q : Position} (hp : R p q) :
    Exec.Aligned R Eq (writeLine s p : Exec κ Unit) (writeLine s q) := by
  rintro ⟨globals, scope, depth, echo, console, draws⟩
    ⟨globals', scope', depth', echo', console', draws'⟩ ⟨hglobals, hscope, rfl, rfl, rfl, rfl⟩
  dsimp only [writeLine]
  generalize Console.writeLine console s = written
  obtain ⟨_ | _, console'⟩ := written
  · exact .failed ⟨rfl, hp, rfl⟩ ⟨hglobals, hscope, rfl, rfl, rfl, rfl⟩
  · exact .done rfl ⟨hglobals, hscope, rfl, rfl, rfl, rfl⟩

theorem aligned_readLine [Console κ] (prompt : String) {p q : Position} (hp : R p q) :
    Exec.Aligned R Eq (readLine prompt p : Exec κ String) (readLine prompt q) := by
  rintro ⟨globals, scope, depth, echo, console, draws⟩
    ⟨globals', scope', depth', echo', console', draws'⟩ ⟨hglobals, hscope, rfl, rfl, rfl, rfl⟩
  dsimp only [readLine]
  generalize Console.readLine console prompt = taken
  obtain ⟨_ | _, console'⟩ := taken
  · exact .failed ⟨rfl, hp, rfl⟩ ⟨hglobals, hscope, rfl, rfl, rfl, rfl⟩
  · exact .done rfl ⟨hglobals, hscope, rfl, rfl, rfl, rfl⟩

/-- A call keeps machines aligned if its body does, and gives both their tables back. -/
theorem aligned_inCall {α : Type} {A : α → α → Prop} {t u : Table} {x y : Exec κ α}
    (ht : t.Aligned R u) (hx : x.Aligned R A y) : (inCall t x).Aligned R A (inCall u y) := by
  intro m m' hm
  -- the body runs one call deeper, and the caller's table is put back however it ends
  have hbody := hx _ _ (show Machine.Aligned R { m with scope := some t, depth := m.depth + 1 }
    { m' with scope := some u, depth := m'.depth + 1 } from
    ⟨hm.globals, .some ht, congrArg (· + 1) hm.depth, hm.echo, hm.console, hm.draws⟩)
  simp only [inCall]
  generalize x _ = r, y _ = r' at hbody ⊢
  cases hbody with
  | done hab hend =>
    exact .done hab
      ⟨hend.globals, hm.scope, congrArg (· - 1) hend.depth, hend.echo, hend.console, hend.draws⟩
  | failed hfault hend =>
    exact .failed hfault
      ⟨hend.globals, hm.scope, congrArg (· - 1) hend.depth, hend.echo, hend.console, hend.draws⟩
  | panicked least most console => exact .panicked least most console
  | outOfFuel => exact .outOfFuel

end Machine

/-! ## Control flow -/

namespace Eval

variable {κ : Type}

/-- The complaint about a missing value does not depend on positions. -/
theorem missingValue_eq {e e' : Expr} (h : e.Aligned R e') : missingValue e = missingValue e' := by
  cases h with
  | call hc _ _ => cases hc <;> rfl
  | _ => rfl

theorem isWithin_missingValue (e : Expr) (p : Position) :
    Fault.isWithin ⟨missingValue e, p⟩ = true := by
  fun_cases missingValue e <;> rfl

/-- A value that is required is there for both, or is missing for both. -/
theorem aligned_required {e e' : Expr} {x y : Exec κ (Option Value)} (he : e.Aligned R e')
    (hx : x.Aligned R (Option.Rel (Value.Aligned R)) y) :
    (required e x).Aligned R (Value.Aligned R) (required e' y) := by
  refine hx.bind fun v w hvw => ?_
  cases hvw with
  | some hv => exact Exec.aligned_pure hv
  | none =>
    exact Exec.aligned_fail ⟨missingValue_eq he, he.position, isWithin_missingValue e _⟩

/-- Aligned expressions become aligned computations. -/
def EvaluatesAligned (R : Position → Position → Prop) (eval : Expr → Exec κ (Option Value)) :
    Prop :=
  ∀ e e' : Expr, e.Aligned R e' → (eval e).Aligned R (Option.Rel (Value.Aligned R)) (eval e')

/-- Aligned statements become aligned computations. -/
def RunsAligned (R : Position → Position → Prop) (run : Stmt → Exec κ Flow) : Prop :=
  ∀ s s' : Stmt, s.Aligned R s' → (run s).Aligned R (Flow.Aligned R) (run s')

theorem aligned_each {eval : Expr → Exec κ (Option Value)} (heval : EvaluatesAligned R eval)
    {es es' : List Expr} (h : List.Forall₂ (Expr.Aligned R) es es') :
    (each eval es).Aligned R (List.Forall₂ (Value.Aligned R)) (each eval es') := by
  induction h with
  | nil => exact Exec.aligned_pure .nil
  | cons he _ ih =>
    refine (aligned_required he (heval _ _ he)).bind fun v w hvw => ?_
    refine ih.bind fun vs ws hrest => ?_
    exact Exec.aligned_pure (.cons hvw hrest)

theorem aligned_condition (subject : String) {e e' : Expr} {x y : Exec κ (Option Value)}
    (he : e.Aligned R e') (hx : x.Aligned R (Option.Rel (Value.Aligned R)) y) :
    (condition subject e x).Aligned R Eq (condition subject e' y) :=
  (aligned_required he hx).bind fun _ _ hvw =>
    Exec.aligned_ofExcept (hvw.toBoolean subject he.position)

theorem aligned_bound (subject : String) {e e' : Expr} {x y : Exec κ (Option Value)}
    (he : e.Aligned R e') (hx : x.Aligned R (Option.Rel (Value.Aligned R)) y) :
    (bound subject e x).Aligned R Eq (bound subject e' y) :=
  (aligned_required he hx).bind fun _ _ hvw =>
    Exec.aligned_ofExcept (hvw.toInteger subject he.position)

/-- Blocks of aligned statements go the same way. -/
theorem aligned_block {run : Stmt → Exec κ Flow} (hrun : RunsAligned R run)
    {body body' : List Stmt} (h : List.Forall₂ (Stmt.Aligned R) body body') :
    (block run body).Aligned R (Flow.Aligned R) (block run body') := by
  induction h with
  | nil => exact Exec.aligned_pure (.next .none)
  | cons hs _ ih =>
    refine (hrun _ _ hs).bind fun f g hfg => ?_
    cases hfg with
    | next _ => exact ih
    | returned hv => exact Exec.aligned_pure (.returned hv)

/-- The same arm is chosen, so the arms of a conditional go the same way. -/
theorem aligned_arms {eval : Expr → Exec κ (Option Value)} {run : Stmt → Exec κ Flow}
    (heval : EvaluatesAligned R eval) (hrun : RunsAligned R run) :
    ∀ {rest rest' : Arms}, rest.Aligned R rest' →
      (arms eval run rest).Aligned R (Flow.Aligned R) (arms eval run rest')
  | _, _, .done => Exec.aligned_pure (.next .none)
  | _, _, .otherwise hbody => aligned_block hrun hbody
  | _, _, .elseif hc hbody hrest => by
    refine (aligned_condition _ hc (heval _ _ hc)).bind ?_
    rintro b _ rfl
    cases b with
    | true => exact aligned_block hrun hbody
    | false => exact aligned_arms heval hrun hrest

/-- Loops with a test before make the same passes. -/
theorem aligned_whileLoop {test test' : Exec κ Bool} {body body' : Exec κ Flow}
    (htest : test.Aligned R Eq test') (hbody : body.Aligned R (Flow.Aligned R) body') (n : Nat) :
    (whileLoop test body n).Aligned R (Flow.Aligned R) (whileLoop test' body' n) := by
  induction n with
  | zero => exact Exec.aligned_exhausted
  | succ n ih =>
    refine htest.bind ?_
    rintro b _ rfl
    cases b with
    | false => exact Exec.aligned_pure (.next .none)
    | true =>
      refine hbody.bind fun f g hfg => ?_
      cases hfg with
      | next _ => exact ih
      | returned hv => exact Exec.aligned_pure (.returned hv)

theorem aligned_untilLoop {test test' : Exec κ Bool} {body body' : Exec κ Flow}
    (hbody : body.Aligned R (Flow.Aligned R) body') (htest : test.Aligned R Eq test') (n : Nat) :
    (untilLoop body test n).Aligned R (Flow.Aligned R) (untilLoop body' test' n) := by
  induction n with
  | zero => exact Exec.aligned_exhausted
  | succ n ih =>
    refine hbody.bind fun f g hfg => ?_
    cases hfg with
    | returned hv => exact Exec.aligned_pure (.returned hv)
    | next _ =>
      refine htest.bind ?_
      rintro b _ rfl
      cases b with
      | true => exact Exec.aligned_pure (.next .none)
      | false => exact ih

/-- Counting loops go through the same numbers. -/
theorem aligned_countLoop {body body' : Int64 → Exec κ Flow}
    (hbody : ∀ i, (body i).Aligned R (Flow.Aligned R) (body' i)) (last step : Int64) (n : Nat) :
    ∀ counter, (countLoop body last step n counter).Aligned R (Flow.Aligned R)
      (countLoop body' last step n counter) := by
  induction n with
  | zero => exact fun _ => Exec.aligned_exhausted
  | succ n ih =>
    intro counter
    refine (hbody counter).bind fun f g hfg => ?_
    cases hfg with
    | returned hv => exact Exec.aligned_pure (.returned hv)
    | next _ =>
      dsimp only
      split
      · exact ih _
      · exact Exec.aligned_pure (.next .none)

theorem aligned_bindParams (params : List String) {args args' : List Value}
    (h : List.Forall₂ (Value.Aligned R) args args') :
    (bindParams params args).Aligned R (bindParams params args') := by
  -- arguments are bound one after the other, to a table that grows
  suffices hfold : ∀ (params : List String) {args args' : List Value} {t u : Table},
      List.Forall₂ (Value.Aligned R) args args' → t.Aligned R u →
      ((params.zip args).foldl (fun t pv => t.put ⟨pv.1, some pv.2, false⟩) t).Aligned R
        ((params.zip args').foldl (fun t pv => t.put ⟨pv.1, some pv.2, false⟩) u) from
    hfold params h Table.aligned_empty
  intro params
  induction params with
  | nil => exact fun _ ht => ht
  | cons param params ih =>
    intro args args' t u hargs ht
    cases hargs with
    | nil => exact ht
    | cons hv hrest => exact ih hrest (ht.put ⟨rfl, .some hv, rfl⟩)

/-- A body that is called with aligned arguments gives aligned results. -/
theorem aligned_callUser {run : Stmt → Exec κ Flow} (hrun : RunsAligned R run)
    (kind : SubroutineKind) (name : String) (params : List String) {body body' : List Stmt}
    (hbody : List.Forall₂ (Stmt.Aligned R) body body') {args args' : List Value}
    (hargs : List.Forall₂ (Value.Aligned R) args args') {p q : Position} (hp : R p q) :
    (callUser run ⟨kind, name, params, body⟩ args p).Aligned R (Option.Rel (Value.Aligned R))
      (callUser run ⟨kind, name, params, body'⟩ args' q) := by
  have harity : ResultAligned R Eq
      (checkArity name params.length params.length args.length p)
      (checkArity name params.length params.length args'.length q) := by
    rw [hargs.length_eq]
    unfold checkArity
    split
    · exact .ok rfl
    · exact .error ⟨rfl, hp, rfl⟩
  -- the depth of calls is the same in both machines, so both are too deep or neither is
  refine (Exec.aligned_ofExcept harity).bind fun _ _ _ m m' hm => ?_
  have hcall := Machine.aligned_inCall (aligned_bindParams params hargs)
    (aligned_block hrun hbody) m m' hm
  rw [hm.depth]
  split
  · exact .failed ⟨rfl, hp, rfl⟩ hm
  · dsimp only
    generalize Machine.inCall _ _ m = r, Machine.inCall _ _ m' = r' at hcall ⊢
    cases hcall with
    | done hflow hend => exact .done hflow.value hend
    | failed hfault hend => exact .failed hfault hend
    | panicked least most console => exact .panicked least most console
    | outOfFuel => exact .outOfFuel

/-! ## The evaluator -/

/-- Asking for a line depends on the prompt as it is shown, not on positions. -/
theorem aligned_inputLine [Console κ] {args args' : List Value}
    (hargs : List.Forall₂ (Value.Aligned R) args args') {p q : Position} (hp : R p q) :
    (Native.inputLine args p : Exec κ _).Aligned R (Value.Aligned R)
      (Native.inputLine args' q) := by
  have hlength := hargs.length_eq
  cases hargs with
  | nil =>
    exact (Machine.aligned_readLine "" hp).map fun _ _ h => h ▸ .text _
  | cons hv hrest =>
    cases hrest with
    | nil =>
      cases hv with
      | text prompt => exact (Machine.aligned_readLine prompt hp).map fun _ _ h => h ▸ .text _
      | _ => exact Exec.aligned_fail ⟨rfl, hp, rfl⟩
    | cons _ _ =>
      simp only [Native.inputLine, hlength]
      exact Exec.aligned_fail ⟨rfl, hp, rfl⟩

/-- The same number is drawn, or the same range is refused, or both panic. -/
theorem aligned_drawNumber {args args' : List Value}
    (hargs : List.Forall₂ (Value.Aligned R) args args') {p q : Position} (hp : R p q) :
    (Native.drawNumber args p : Exec κ _).Aligned R (Value.Aligned R)
      (Native.drawNumber args' q) := by
  intro m m' hm
  have hdraw := Native.aligned_draw m.draws hargs hp
  simp only [Native.drawNumber, ← hm.draws]
  generalize Native.draw m.draws args p = r, Native.draw m.draws args' q = r' at hdraw ⊢
  cases hdraw with
  | ok hdrawn =>
    cases hdrawn with
    | number hvw draws =>
      exact .done hvw ⟨hm.globals, hm.scope, hm.depth, hm.echo, hm.console, rfl⟩
    | tooWide least most =>
      rw [hm.console]
      exact .panicked least most m'.console
  | error hfault => exact .failed hfault hm

/-- What a provided subroutine does depends on its arguments up to positions. -/
theorem aligned_native [Console κ] (native : Native) {args args' : List Value}
    (hargs : List.Forall₂ (Value.Aligned R) args args') {p q : Position} (hp : R p q) :
    (native.call args p : Exec κ _).Aligned R (Option.Rel (Value.Aligned R))
      (native.call args' q) := by
  cases native with
  | print =>
    -- what is printed is the form of the value, in which no position shows
    refine Exec.Aligned.bind (A := Eq) ?_ fun _ _ _ => Exec.aligned_pure .none
    refine (Exec.aligned_ofExcept (Native.aligned_single .print hargs hp)).bind fun v w hvw => ?_
    rw [hvw.shown_eq]
    exact Machine.aligned_writeLine _ hp
  | input => exact (aligned_inputLine hargs hp).map fun _ _ hvw => .some hvw
  | random => exact (aligned_drawNumber hargs hp).map fun _ _ hvw => .some hvw
  | str => exact (Exec.aligned_ofExcept (Native.aligned_toText hargs hp)).map fun _ _ h => .some h
  | int =>
    exact (Exec.aligned_ofExcept (Native.aligned_toInteger hargs hp)).map fun _ _ h => .some h
  | float =>
    exact (Exec.aligned_ofExcept (Native.aligned_toFloat hargs hp)).map fun _ _ h => .some h
  | bool =>
    exact (Exec.aligned_ofExcept (Native.aligned_toBoolean hargs hp)).map fun _ _ h => .some h
  | asc => exact (Exec.aligned_ofExcept (Native.aligned_codeOf hargs hp)).map fun _ _ h => .some h
  | chr => exact (Exec.aligned_ofExcept (Native.aligned_ofCode hargs hp)).map fun _ _ h => .some h

section Evaluator

variable [Console κ] {n : Nat}

/-- Calls are aligned if evaluation and the running of bodies are. -/
theorem aligned_call {callee callee' : Expr} {arguments arguments' : List Expr} {p q : Position}
    (hexpr : EvaluatesAligned R (expr (κ := κ) n)) (hstmt : RunsAligned R (stmt (κ := κ) n))
    (hcallee : callee.Aligned R callee')
    (harguments : List.Forall₂ (Expr.Aligned R) arguments arguments') (hp : R p q) :
    (expr (n + 1) (.call callee arguments p) : Exec κ _).Aligned R (Option.Rel (Value.Aligned R))
      (expr (n + 1) (.call callee' arguments' q)) := by
  refine (aligned_required hcallee (hexpr _ _ hcallee)).bind fun v w hvw => ?_
  -- arguments are evaluated only for a callee that can be called
  cases hvw with
  | native native =>
    refine (aligned_each hexpr harguments).bind fun vs ws hvs => ?_
    exact aligned_native native hvs hp
  | user kind name params hbody =>
    refine (aligned_each hexpr harguments).bind fun vs ws hvs => ?_
    exact aligned_callUser hstmt kind name params hbody hvs hp
  | _ => exact Exec.aligned_fail ⟨rfl, hp, rfl⟩

/-- Evaluation is aligned with one more unit of fuel. -/
theorem aligned_expr_succ (hexpr : EvaluatesAligned R (expr (κ := κ) n))
    (hstmt : RunsAligned R (stmt (κ := κ) n)) : EvaluatesAligned R (expr (κ := κ) (n + 1)) := by
  intro e e' he
  cases he with
  | literal v hp => exact Exec.aligned_pure (.some (Value.aligned_ofLiteral v))
  | name id hp =>
    intro m m' hm
    -- a name is found in both machines or in neither
    have hlookup := hm.lookup id hp
    simp only [expr]
    generalize m.lookup id _ = r, m'.lookup id _ = r' at hlookup ⊢
    cases hlookup with
    | ok hv => exact .done (.some hv) hm
    | error hfault => exact .failed hfault hm
  | unary op hop hp =>
    refine (aligned_required hop (hexpr _ _ hop)).bind fun v w hvw => ?_
    refine (Exec.aligned_ofExcept (UnaryOp.aligned_apply op hvw hp)).bind fun _ _ hresult => ?_
    exact Exec.aligned_pure (.some hresult)
  | binary op hl hr hp =>
    refine (aligned_required hl (hexpr _ _ hl)).bind fun a a' ha => ?_
    refine (aligned_required hr (hexpr _ _ hr)).bind fun b b' hb => ?_
    refine (Exec.aligned_ofExcept (BinaryOp.aligned_apply op ha hb hp)).bind fun _ _ hresult => ?_
    exact Exec.aligned_pure (.some hresult)
  | call hcallee harguments hp => exact aligned_call hexpr hstmt hcallee harguments hp

theorem aligned_forLoop (counter : String) {first first' last last' step step' : Expr}
    {body body' : List Stmt} {p q : Position}
    (hexpr : EvaluatesAligned R (expr (κ := κ) n)) (hstmt : RunsAligned R (stmt (κ := κ) n))
    (hfirst : first.Aligned R first') (hlast : last.Aligned R last')
    (hstep : step.Aligned R step') (hbody : List.Forall₂ (Stmt.Aligned R) body body')
    (hp : R p q) :
    (stmt (n + 1) (.forLoop counter first last step body p) : Exec κ _).Aligned R (Flow.Aligned R)
      (stmt (n + 1) (.forLoop counter first' last' step' body' q)) := by
  refine (aligned_bound _ hfirst (hexpr _ _ hfirst)).bind ?_
  rintro a _ rfl
  refine (aligned_bound _ hlast (hexpr _ _ hlast)).bind ?_
  rintro b _ rfl
  refine (aligned_bound _ hstep (hexpr _ _ hstep)).bind ?_
  rintro s _ rfl
  -- the bounds are plain numbers, so the checks on them are the same for both
  split
  · exact Exec.aligned_fail ⟨rfl, hstep.position, rfl⟩
  · split
    · exact Exec.aligned_fail ⟨rfl, hp, rfl⟩
    · refine aligned_countLoop (fun i => ?_) b s n a
      refine (Machine.aligned_assign _ (.integer i) hp).bind fun _ _ _ => ?_
      exact aligned_block hstmt hbody

/-- Statements run alike with one more unit of fuel. -/
theorem aligned_stmt_succ (hexpr : EvaluatesAligned R (expr (κ := κ) n))
    (hstmt : RunsAligned R (stmt (κ := κ) n)) : RunsAligned R (stmt (κ := κ) (n + 1)) := by
  intro s s' hs
  -- the statements are built alike, and run in the same order
  cases hs with
  | expr he =>
    refine (hexpr _ _ he).bind fun v w hvw => ?_
    exact Exec.aligned_pure (.next hvw)
  | assign target he hp =>
    refine (aligned_required he (hexpr _ _ he)).bind fun v w hvw => ?_
    refine (Machine.aligned_assign target hvw hp).bind fun _ _ _ => ?_
    exact Exec.aligned_pure (.next .none)
  | define kind name params hbody hp =>
    refine (Machine.aligned_assign _ (.user kind name params hbody) hp).bind fun _ _ _ => ?_
    exact Exec.aligned_pure (.next .none)
  | retNone hp => exact Exec.aligned_pure (.returned .none)
  | retSome he hp =>
    refine (aligned_required he (hexpr _ _ he)).bind fun v w hvw => ?_
    exact Exec.aligned_pure (.returned (.some hvw))
  | branch hc hbody hrest hp =>
    refine (aligned_condition _ hc (hexpr _ _ hc)).bind ?_
    rintro b _ rfl
    cases b with
    | true => exact aligned_block hstmt hbody
    | false => exact aligned_arms hexpr hstmt hrest
  | whileLoop hc hbody hp =>
    exact aligned_whileLoop (aligned_condition _ hc (hexpr _ _ hc)) (aligned_block hstmt hbody) n
  | untilLoop hbody hc hp =>
    exact aligned_untilLoop (aligned_block hstmt hbody) (aligned_condition _ hc (hexpr _ _ hc)) n
  | forLoop counter hfirst hlast hstep hbody hp =>
    exact aligned_forLoop counter hexpr hstmt hfirst hlast hstep hbody hp

/-- **Positions never steer a run**: with the same fuel, aligned expressions and aligned statements
run alike from aligned machines. -/
theorem aligned_eval (n : Nat) :
    EvaluatesAligned R (expr (κ := κ) n) ∧ RunsAligned R (stmt (κ := κ) n) := by
  induction n with
  | zero => exact ⟨fun _ _ _ => Exec.aligned_exhausted, fun _ _ _ => Exec.aligned_exhausted⟩
  | succ n ih => exact ⟨aligned_expr_succ ih.1 ih.2, aligned_stmt_succ ih.1 ih.2⟩

theorem aligned_topLevel (fuel : Nat) {s s' : Stmt} (h : s.Aligned R s') :
    (topLevel fuel s : Exec κ _).Aligned R (Option.Rel (Value.Aligned R)) (topLevel fuel s') := by
  refine ((aligned_eval fuel).2 _ _ h).bind fun f g hfg => ?_
  have hvalue := hfg.value
  generalize f.value = v, g.value = w at hvalue ⊢
  cases hvalue with
  | none => exact Exec.aligned_pure .none
  | @some v w hv =>
    -- what is echoed is the shown form of the value, which has no positions
    intro m m' hm
    dsimp only
    rw [hm.echo, hv.shown_eq]
    split
    · have hwrite := Machine.aligned_writeLine w.shown h.position m m' hm
      simp only [Dialogue.writeLine]
      generalize Machine.writeLine _ _ m = r, Machine.writeLine _ _ m' = r' at hwrite ⊢
      cases hwrite with
      | done _ hend => exact .done (.some hv) hend
      | failed hfault hend => exact .failed hfault hend
      | panicked least most console => exact .panicked least most console
      | outOfFuel => exact .outOfFuel
    · exact .done (.some hv) hm

/-- A program of aligned statements runs alike. -/
theorem aligned_topLevels (fuel : Nat) {body body' : List Stmt}
    (h : List.Forall₂ (Stmt.Aligned R) body body') :
    (topLevels fuel body : Exec κ _).Aligned R Eq (topLevels fuel body') := by
  induction h with
  | nil => exact Exec.aligned_pure rfl
  | cons hs _ ih => exact (aligned_topLevel fuel hs).bind fun _ _ _ => ih

end Evaluator

end Eval

end Primer
