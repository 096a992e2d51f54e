import Primer.Proofs.Footprint.Calls
import Primer.Proofs.Soundness.Faults

/-!
# Programs without conditional loops end

Three things can make a run long. Expressions and statements nest, but only as deep as they are
written. A counting loop makes passes, but each brings the counter nearer to the last value. And a
call runs the body of a subroutine that a table holds, which may call anything again, itself
included; but its body is one call deeper, and no call is made at the depth limit. So without loops
that wait for a condition everything ends: by induction on the calls that are left up to the limit,
then on the syntax, and in a counting loop on the distance to the last value.

To end means that from some amount of fuel on the outcome is the same, and not for want of fuel
(`Exec.Settles`). Which machines a run passes through is known from its footprint
(`Footprint.calls`): none holds a conditional loop, and all are at the depth of the first.
-/

set_option autoImplicit false

namespace Primer

/-- Whether a statement, apart from those inside it, is no loop that waits for a condition. -/
def Stmt.isBounded : Stmt → Bool
  | .whileLoop _ _ _ | .untilLoop _ _ _ => false
  | _ => true

/-- No loop in the statement waits for a condition. -/
def Stmt.Bounded (s : Stmt) : Prop := s.all Stmt.isBounded = true

instance (s : Stmt) : Decidable s.Bounded := inferInstanceAs (Decidable (_ = true))

/-- No loop in the statements waits for a condition. -/
def Stmt.BoundedOf (body : List Stmt) : Prop := Stmt.allOf Stmt.isBounded body = true

variable {κ : Type}

/-- No loop in a subroutine that the machine holds waits for a condition. -/
def Machine.Bounded (m : Machine κ) : Prop :=
  ∀ s : Subroutine, m.Holds s → Stmt.BoundedOf s.body

/-! ## Computations that settle -/

namespace Exec

variable {α β : Type}

/-- With enough fuel the computation ends, and more fuel does not change how. -/
def Settles (x : Nat → Exec κ α) (m : Machine κ) : Prop :=
  ∃ (o : Outcome κ α) (enough : Nat), o ≠ .outOfFuel ∧ ∀ n, enough ≤ n → x n m = o

/-- A computation may keep a unit of its fuel back. -/
theorem settles_succ {x : Nat → Exec κ α} {m : Machine κ} :
    Settles (fun n => x (n + 1)) m ↔ Settles x m := by
  constructor
  · rintro ⟨o, enough, ho, h⟩
    refine ⟨o, enough + 1, ho, fun n hn => ?_⟩
    obtain ⟨k, rfl⟩ := Nat.exists_eq_add_of_le' hn
    exact h (k + enough) (Nat.le_add_left enough k)
  · rintro ⟨o, enough, ho, h⟩
    exact ⟨o, enough, ho, fun n hn => h (n + 1) (Nat.le_succ_of_le hn)⟩

/-- Computations that settle do so in a row. -/
theorem Settles.bind {x : Nat → Exec κ α} {f : Nat → α → Exec κ β} {m : Machine κ}
    (hx : Settles x m) (hf : ∀ n a m', x n m = .done a m' → Settles (fun n => f n a) m') :
    Settles (fun n => x n >>= f n) m := by
  obtain ⟨o, enough, ho, hx⟩ := hx
  cases o with
  | outOfFuel => exact absurd rfl ho
  | failed fault m' =>
    refine ⟨.failed fault m', enough, nofun, fun n hn => ?_⟩
    simp only [Bind.bind, hx n hn]
  | panicked least most console =>
    refine ⟨.panicked least most console, enough, nofun, fun n hn => ?_⟩
    simp only [Bind.bind, hx n hn]
  | done a m' =>
    obtain ⟨o', enough', ho', hrest⟩ := hf enough a m' (hx enough (Nat.le_refl enough))
    -- both have settled with the larger of the two amounts
    refine ⟨o', max enough enough', ho', fun n hn => ?_⟩
    simp only [Bind.bind, hx n (by omega)]
    exact hrest n (by omega)

/-- A call settles if its body does, in a table of its own and one call deeper. -/
theorem Settles.inCall {x : Nat → Exec κ α} {table : Table} {m : Machine κ}
    (h : Settles x { m with scope := some table, depth := m.depth + 1 }) :
    Settles (fun n => Machine.inCall table (x n)) m := by
  obtain ⟨o, enough, ho, hx⟩ := h
  cases o with
  | outOfFuel => exact absurd rfl ho
  | failed fault m' =>
    refine ⟨.failed fault { m' with scope := m.scope, depth := m'.depth - 1 }, enough, by simp,
      fun n hn => ?_⟩
    simp only [Machine.inCall, hx n hn]
  | panicked least most console =>
    refine ⟨.panicked least most console, enough, by simp, fun n hn => ?_⟩
    simp only [Machine.inCall, hx n hn]
  | done a m' =>
    refine ⟨.done a { m' with scope := m.scope, depth := m'.depth - 1 }, enough, by simp,
      fun n hn => ?_⟩
    simp only [Machine.inCall, hx n hn]

/-- The computation settles from every machine at the given depth without conditional loops. -/
def SettlesAt (d : Nat) (x : Nat → Exec κ α) : Prop :=
  ∀ m : Machine κ, m.Meets Stmt.isBounded → m.depth = d → Settles x m

/-- One unit of fuel more does not matter for settling. -/
theorem settlesAt_succ {x : Nat → Exec κ α} {d : Nat} :
    SettlesAt d (fun n => x (n + 1)) ↔ SettlesAt d x :=
  forall_congr' fun _ => forall_congr' fun _ => forall_congr' fun _ => settles_succ

/-- Of the first of two computations it has to be known where it stays: at its depth, and without
conditional loops. -/
theorem SettlesAt.bind {A : α → Prop} {x : Nat → Exec κ α} {f : Nat → α → Exec κ β} {d : Nat}
    (hx : SettlesAt d x)
    (hstays : ∀ n, (x n).Within Stmt.isBounded (Footprint.calls κ Stmt.isBounded).stmts A)
    (hf : ∀ a, A a → SettlesAt d (fun n => f n a)) : SettlesAt d (fun n => x n >>= f n) := by
  intro m hm hd
  refine (hx m hm hd).bind fun n a m' hdone => ?_
  have hwithin := hstays n m hm
  rw [hdone] at hwithin
  obtain ⟨hm', hlevel⟩ := hwithin.machine rfl
  exact hf a hwithin.value m' hm' (hlevel.depth.trans hd)

/-! ## Computations that take no fuel -/

/-- The computation never runs out of fuel. -/
def Immediate (x : Exec κ α) : Prop := ∀ m, x m ≠ .outOfFuel

/-- What needs no fuel settles. -/
theorem Immediate.settlesAt {x : Exec κ α} (hx : x.Immediate) (d : Nat) :
    SettlesAt d (fun _ => x) :=
  fun m _ _ => ⟨x m, 0, hx m, fun _ _ => rfl⟩

theorem immediate_pure (a : α) : (pure a : Exec κ α).Immediate := fun _ => nofun

theorem immediate_fail (fault : Fault) : (fail fault : Exec κ α).Immediate := fun _ => nofun

theorem immediate_ofExcept (r : Except Fault α) : (ofExcept r : Exec κ α).Immediate := by
  intro m
  cases r with
  | ok a => nofun
  | error fault => nofun

/-- Computations without fuel need none in a row. -/
theorem Immediate.bind {x : Exec κ α} {f : α → Exec κ β} (hx : x.Immediate)
    (hf : ∀ a, (f a).Immediate) : (x >>= f).Immediate := by
  intro m
  simp only [Bind.bind]
  cases hrun : x m with
  | done a m' => exact hf a m'
  | failed fault m' => nofun
  | panicked least most console => nofun
  | outOfFuel => exact absurd hrun (hx m)

theorem Immediate.map {x : Exec κ α} (hx : x.Immediate) (f : α → β) : (f <$> x).Immediate :=
  hx.bind fun a => immediate_pure (f a)

end Exec

theorem Machine.immediate_assign (target : Target) (v : Value) (pos : Position) :
    (Machine.assign target v pos : Exec κ Unit).Immediate := by
  intro m
  unfold Machine.assign
  split
  · split <;> nofun
  · split <;> nofun

theorem Machine.immediate_writeLine [Console κ] (s : String) (pos : Position) :
    (Machine.writeLine s pos : Exec κ Unit).Immediate := by
  intro m
  unfold Machine.writeLine
  dsimp only
  split <;> nofun

theorem Machine.immediate_readLine [Console κ] (prompt : String) (pos : Position) :
    (Machine.readLine prompt pos : Exec κ String).Immediate := by
  intro m
  unfold Machine.readLine
  dsimp only
  split <;> nofun

namespace Native

variable (args : List Value) (pos : Position)

theorem immediate_drawNumber : (drawNumber args pos : Exec κ Value).Immediate := by
  intro m
  unfold drawNumber
  split <;> nofun

theorem immediate_inputLine [Console κ] : (inputLine args pos : Exec κ Value).Immediate := by
  unfold inputLine
  split
  · exact (Machine.immediate_readLine _ pos).map _
  · exact (Machine.immediate_readLine _ pos).map _
  · exact Exec.immediate_fail _
  · exact Exec.immediate_fail _

/-- No provided subroutine needs fuel. -/
theorem immediate_call [Console κ] (native : Native) :
    (native.call args pos : Exec κ (Option Value)).Immediate := by
  cases native with
  | print =>
    refine Exec.Immediate.bind ?_ fun _ => Exec.immediate_pure none
    exact (Exec.immediate_ofExcept _).bind fun v => Machine.immediate_writeLine v.shown pos
  | input => exact (immediate_inputLine args pos).map some
  | random => exact (immediate_drawNumber args pos).map some
  | str | int | float | bool | asc | chr => exact (Exec.immediate_ofExcept _).map some

end Native

namespace Eval

open Exec

variable {d : Nat}

/-! ## Passes of a counting loop -/

/-- A counting loop settles if its passes do, as each step brings the counter nearer to the last
value. -/
theorem settlesAt_countLoop {A : Flow → Prop} {last step : Int64} (hstep : step.toInt ≠ 0)
    (counter : Int64) {pass : Nat → Int64 → Exec κ Flow}
    (hpass : ∀ i, SettlesAt d fun n => pass n i)
    (hstays : ∀ n i,
      (pass n i).Within Stmt.isBounded (Footprint.calls κ Stmt.isBounded).stmts A) :
    SettlesAt d fun n => countLoop (pass n) last step n counter := by
  -- the fuel of a pass stays the same while that of the loop shrinks, so the passes are general
  induction hdistance : distance last step counter using Nat.strongRecOn
    generalizing counter pass with
  | ind k ih =>
    refine settlesAt_succ.1 <| (settlesAt_succ.2 (hpass counter)).bind
      (fun n => hstays (n + 1) counter) fun flow _ => ?_
    cases flow with
    | returned v => exact (immediate_pure _).settlesAt d
    | next v =>
      cases hnext : nextCounter? counter last step with
      | none => exact (immediate_pure _).settlesAt d
      | some next =>
        have hnearer := distance_lt hstep hnext
        rw [hdistance] at hnearer
        exact ih _ hnearer next (fun i => settlesAt_succ.2 (hpass i))
          (fun n i => hstays (n + 1) i) rfl

/-! ## Parts of expressions and statements -/

variable [Console κ]

/-- Evaluation keeps the machine free of conditional loops. -/
theorem stays_expr (n : Nat) (e : Expr) :
    (expr n e : Exec κ _).Within Stmt.isBounded (Footprint.calls κ Stmt.isBounded).stmts
      fun v => ∀ w ∈ v, w.Meets Stmt.isBounded :=
  (((Footprint.calls κ Stmt.isBounded).evaluates_and_runs n).1 e).imp Machine.Restored.sameLevel

section Parts

variable {e : Expr} {β : Type}

/-- An expression that a value is needed of, and what is done with the value. -/
theorem settlesAt_required {f : Nat → Value → Exec κ β}
    (he : SettlesAt d fun n => (expr n e : Exec κ _))
    (hf : ∀ v, v.Meets Stmt.isBounded → SettlesAt d fun n => f n v) :
    SettlesAt d fun n => required e (expr n e) >>= f n := by
  refine SettlesAt.bind ?_ (fun n => within_required (stays_expr n e)) hf
  refine he.bind (fun n => stays_expr n e) fun v _ => ?_
  cases v with
  | some w => exact (immediate_pure w).settlesAt d
  | none => exact (immediate_fail _).settlesAt d

/-- A condition, and what is done if it holds and if not. -/
theorem settlesAt_condition {f : Nat → Bool → Exec κ β} {subject : String}
    (he : SettlesAt d fun n => (expr n e : Exec κ _)) (hf : ∀ b, SettlesAt d fun n => f n b) :
    SettlesAt d fun n => condition subject e (expr n e) >>= f n := by
  refine SettlesAt.bind ?_ (fun n => within_condition _ (stays_expr n e)) fun b _ => hf b
  exact settlesAt_required he fun _ _ => (immediate_ofExcept _).settlesAt d

/-- A bound of a counting loop, and what is done with it. -/
theorem settlesAt_bound {f : Nat → Int64 → Exec κ β} {subject : String}
    (he : SettlesAt d fun n => (expr n e : Exec κ _)) (hf : ∀ i, SettlesAt d fun n => f n i) :
    SettlesAt d fun n => bound subject e (expr n e) >>= f n := by
  refine SettlesAt.bind ?_ (fun n => within_bound _ (stays_expr n e)) fun i _ => hf i
  exact settlesAt_required he fun _ _ => (immediate_ofExcept _).settlesAt d

end Parts

/-- A call settles if its body does one call deeper. At the limit the body does not matter. -/
theorem settlesAt_callUser {s : Subroutine}
    (hbody : d < maxDepth → SettlesAt (d + 1) fun n => block (stmt n : Stmt → Exec κ Flow) s.body)
    {args : List Value} (hargs : ∀ v ∈ args, v.Meets Stmt.isBounded) (pos : Position) :
    SettlesAt d fun n => callUser (stmt n : Stmt → Exec κ Flow) s args pos := by
  refine ((immediate_ofExcept _).settlesAt d).bind (fun _ => within_ofExcept (yields_any _))
    fun _ _ m hm hd => ?_
  -- at the limit the call fails before its body is run
  by_cases hdeep : maxDepth ≤ m.depth
  · refine ⟨.failed ⟨.callDepth maxDepth, pos⟩ m, 0, nofun, fun n _ => ?_⟩
    simp only [if_pos hdeep]
  · have henter := hm.enter (meets_bindParams s.params hargs) (m.depth + 1)
    obtain ⟨o, enough, ho, hcall⟩ := (hbody (by omega) _ henter (congrArg (· + 1) hd)).inCall
    cases o with
    | outOfFuel => exact absurd rfl ho
    | failed fault m' =>
      refine ⟨.failed fault m', enough, nofun, fun n hn => ?_⟩
      simp only [if_neg hdeep, hcall n hn]
    | panicked least most console =>
      refine ⟨.panicked least most console, enough, nofun, fun n hn => ?_⟩
      simp only [if_neg hdeep, hcall n hn]
    | done flow m' =>
      refine ⟨.done flow.value m', enough, nofun, fun n hn => ?_⟩
      simp only [if_neg hdeep, hcall n hn]

/-- A counting loop settles if its bounds and its body do. -/
theorem settlesAt_forLoop {counter : String} {first last step : Expr} {body : List Stmt}
    {pos : Position} (hs : (Stmt.forLoop counter first last step body pos).Bounded)
    (hfirst : SettlesAt d fun n => (expr n first : Exec κ _))
    (hlast : SettlesAt d fun n => (expr n last : Exec κ _))
    (hstep : SettlesAt d fun n => (expr n step : Exec κ _))
    (hbody : SettlesAt d fun n => block (stmt n : Stmt → Exec κ Flow) body) :
    SettlesAt d fun n => (stmt n (.forLoop counter first last step body pos) : Exec κ _) := by
  let F := Footprint.calls κ Stmt.isBounded
  have hself := Stmt.self_of_all hs
  simp only [Stmt.Bounded, Stmt.all, Bool.and_eq_true] at hs
  refine settlesAt_succ.1 <| settlesAt_bound hfirst fun a => ?_
  refine settlesAt_bound hlast fun b => ?_
  refine settlesAt_bound hstep fun s => ?_
  -- a step of zero is refused, any other one makes for progress
  by_cases hzero : s.toInt = 0
  · simp only [if_pos hzero]
    exact (immediate_fail _).settlesAt d
  · simp only [if_neg hzero]
    split
    · exact (immediate_fail _).settlesAt d
    · have hpass : ∀ i, SettlesAt d fun n => (pass n counter body pos i : Exec κ _) := by
        intro i
        refine ((Machine.immediate_assign _ _ pos).settlesAt d).bind
          (fun _ => F.within_assign hself rfl (v := .integer i) trivial pos) fun _ _ => ?_
        exact hbody
      exact settlesAt_countLoop hzero a hpass
        fun n => F.within_pass (F.evaluates_and_runs n).2 hself hs.2

/-! ## Expressions and statements -/

variable (κ) in
/-- The bodies of calls that are made at a depth settle, one call deeper. -/
def CallsSettle (d : Nat) : Prop :=
  d < maxDepth → ∀ body, Stmt.BoundedOf body →
    SettlesAt (d + 1) fun n => block (stmt n : Stmt → Exec κ Flow) body

mutual

/-- Expressions settle if calls do, by induction on the expression. -/
theorem settlesAt_expr (hcalls : CallsSettle κ d) :
    ∀ e : Expr, SettlesAt d fun n => (expr n e : Exec κ _)
  | .literal v pos => settlesAt_succ.1 <| (immediate_pure _).settlesAt d
  | .name id pos => by
    refine settlesAt_succ.1 fun m _ _ => ⟨expr 1 (.name id pos) m, 0, ?_, fun _ _ => rfl⟩
    simp only [expr]
    split <;> nofun
  | .unary op e pos => by
    refine settlesAt_succ.1 <| settlesAt_required (settlesAt_expr hcalls e) fun v _ => ?_
    exact ((immediate_ofExcept _).bind fun _ => immediate_pure _).settlesAt d
  | .binary op l r pos => by
    refine settlesAt_succ.1 <| settlesAt_required (settlesAt_expr hcalls l) fun a _ => ?_
    refine settlesAt_required (settlesAt_expr hcalls r) fun b _ => ?_
    exact ((immediate_ofExcept _).bind fun _ => immediate_pure _).settlesAt d
  | .call callee arguments pos => by
    refine settlesAt_succ.1 <| settlesAt_required (settlesAt_expr hcalls callee) fun v hv => ?_
    have hargs := settlesAt_each hcalls arguments
    -- the body of a call is no part of the expression: the callee's value brings it along
    cases v with
    | callable c =>
      cases c with
      | native native =>
        refine hargs.bind (fun n => within_each (stays_expr n) arguments) fun args _ => ?_
        exact (Native.immediate_call args pos native).settlesAt d
      | user s =>
        refine hargs.bind (fun n => within_each (stays_expr n) arguments) fun args hmeets => ?_
        exact settlesAt_callUser (fun hd => hcalls hd s.body hv) hmeets pos
    | _ => exact (immediate_fail _).settlesAt d

theorem settlesAt_each (hcalls : CallsSettle κ d) :
    ∀ es : List Expr, SettlesAt d fun n => each (expr n : Expr → Exec κ _) es
  | [] => (immediate_pure []).settlesAt d
  | e :: es => by
    refine settlesAt_required (settlesAt_expr hcalls e) fun v _ => ?_
    refine (settlesAt_each hcalls es).bind (fun n => within_each (stays_expr n) es) fun vs _ => ?_
    exact (immediate_pure _).settlesAt d

end

mutual

/-- Statements without conditional loops settle if calls do. -/
theorem settlesAt_stmt (hcalls : CallsSettle κ d) :
    ∀ s : Stmt, s.Bounded → SettlesAt d fun n => (stmt n s : Exec κ _)
  | .expr e, _ => by
    refine settlesAt_succ.1 <| (settlesAt_expr hcalls e).bind (stays_expr · e) fun v _ => ?_
    exact (immediate_pure _).settlesAt d
  | .assign target e pos, _ => by
    refine settlesAt_succ.1 <| settlesAt_required (settlesAt_expr hcalls e) fun v _ => ?_
    exact ((Machine.immediate_assign target v pos).bind fun _ => immediate_pure _).settlesAt d
  | .define kind name params body pos, _ => by
    refine settlesAt_succ.1 <| Immediate.settlesAt ?_ d
    exact (Machine.immediate_assign _ _ pos).bind fun _ => immediate_pure _
  | .ret none pos, _ => settlesAt_succ.1 <| (immediate_pure _).settlesAt d
  | .ret (some e) pos, _ => by
    refine settlesAt_succ.1 <| settlesAt_required (settlesAt_expr hcalls e) fun v _ => ?_
    exact (immediate_pure _).settlesAt d
  | .branch c body rest pos, hs => by
    simp only [Stmt.Bounded, Stmt.all, Bool.and_eq_true] at hs
    refine settlesAt_succ.1 <| settlesAt_condition (settlesAt_expr hcalls c) fun b => ?_
    cases b with
    | true => exact settlesAt_block hcalls body hs.1.2
    | false => exact settlesAt_arms hcalls rest hs.2
  | .whileLoop c body pos, hs => by cases hs
  | .untilLoop body c pos, hs => by cases hs
  | .forLoop counter first last step body pos, hs => by
    -- the body passes the test as the loop does
    have hbody : Stmt.BoundedOf body := by
      simp only [Stmt.Bounded, Stmt.all, Bool.and_eq_true] at hs
      exact hs.2
    exact settlesAt_forLoop hs (settlesAt_expr hcalls first) (settlesAt_expr hcalls last)
      (settlesAt_expr hcalls step) (settlesAt_block hcalls body hbody)

theorem settlesAt_block (hcalls : CallsSettle κ d) :
    ∀ body : List Stmt, Stmt.BoundedOf body →
      SettlesAt d fun n => block (stmt n : Stmt → Exec κ Flow) body
  | [], _ => (immediate_pure _).settlesAt d
  | s :: rest, h => by
    simp only [Stmt.BoundedOf, Stmt.allOf, Bool.and_eq_true] at h
    refine (settlesAt_stmt hcalls s h.1).bind
      (fun n => ((Footprint.calls κ Stmt.isBounded).evaluates_and_runs n).2 s h.1) fun flow _ => ?_
    cases flow with
    | next v => exact settlesAt_block hcalls rest h.2
    | returned v => exact (immediate_pure _).settlesAt d

theorem settlesAt_arms (hcalls : CallsSettle κ d) :
    ∀ rest : Arms, rest.all Stmt.isBounded = true →
      SettlesAt d fun n => arms (expr n : Expr → Exec κ _) (stmt n) rest
  | .done, _ => (immediate_pure _).settlesAt d
  | .otherwise body, h => settlesAt_block hcalls body h
  | .elseif c body rest, h => by
    simp only [Arms.all, Bool.and_eq_true] at h
    refine settlesAt_condition (settlesAt_expr hcalls c) fun b => ?_
    cases b with
    | true => exact settlesAt_block hcalls body h.1
    | false => exact settlesAt_arms hcalls rest h.2

end

/-- Calls settle at every depth: a body is run with fewer calls left up to the limit. -/
theorem callsSettle (d : Nat) : CallsSettle κ d := by
  intro hd body hbody
  exact settlesAt_block (callsSettle (d + 1)) body hbody
termination_by maxDepth - d

/-! ## Ends and panics -/

/-- With enough fuel the computation is done or fails, and more fuel does not change how; or it
panics, and then over bounds that are further apart than a double can say. -/
def EndsUnlessWide {α : Type} (x : Nat → Exec κ α) (m : Machine κ) : Prop :=
  ∃ (o : Outcome κ α) (enough : Nat), (∀ n, enough ≤ n → x n m = o) ∧
    ((∃ m', o.machine? = some m') ∨
      ∃ least most console, o = .panicked least most console ∧ (most - least).isFinite = false)

omit [Console κ] in
/-- What settles, and is proper, ends in one of these ways. -/
theorem endsUnlessWide_of_settles {α : Type} {A : α → Prop} {x : Nat → Exec κ α} {m : Machine κ}
    (h : Settles x m) (hproper : ∀ n, (x n).Proper A) : EndsUnlessWide x m := by
  obtain ⟨o, enough, ho, hx⟩ := h
  have hend := hproper enough m
  rw [hx enough (Nat.le_refl enough)] at hend
  refine ⟨o, enough, hx, ?_⟩
  cases hend with
  | done _ => exact Or.inl ⟨_, rfl⟩
  | failed _ => exact Or.inl ⟨_, rfl⟩
  | panicked hwide => exact Or.inr ⟨_, _, _, rfl, hwide⟩
  | outOfFuel => exact absurd rfl ho

/-- **Without conditional loops, everything ends.** From a machine whose subroutines have none,
evaluating ends, and so does running a statement or a block that has none: with enough fuel there
is a value, a flow or a fault, and more fuel does not change it. Subroutines may call each other
and themselves in any way, and counting loops may have any bounds and steps. Only a draw can get in
the way, which panics if its bounds are further apart than a double can say. -/
theorem bounded_settles (m : Machine κ) (hm : m.Bounded) :
    (∀ s : Stmt, EndsUnlessWide (fun n => valueOf n s) m) ∧
    (∀ s : Stmt, s.Bounded → EndsUnlessWide (fun n => stmt n s) m) ∧
    ∀ body : List Stmt, Stmt.BoundedOf body → EndsUnlessWide (fun n => block (stmt n) body) m := by
  have hcalls : CallsSettle κ m.depth := callsSettle m.depth
  refine ⟨?_, ?_, ?_⟩
  · intro s
    cases s with
    | expr e =>
      exact endsUnlessWide_of_settles (settlesAt_expr hcalls e m hm rfl) fun n => proper_expr n e
    | _ => exact ⟨_, 0, fun _ _ => rfl, Or.inl ⟨m, rfl⟩⟩
  · intro s hs
    exact endsUnlessWide_of_settles (settlesAt_stmt hcalls s hs m hm rfl) fun n => proper_stmt n s
  · intro body hbody
    exact endsUnlessWide_of_settles (settlesAt_block hcalls body hbody m hm rfl) fun n =>
      proper_block n body

/-- A loop down from the largest integer to the smallest ends, although the function that it calls
would call itself forever. -/
theorem bounded_settles_recursion :
    EndsUnlessWide (fun n => stmt n
        (.forLoop "i" (.literal (.integer Int64.maxValue) ⟨1, 8⟩)
          (.literal (.integer Int64.minValue) ⟨1, 31⟩) (.literal (.integer (-1)) ⟨1, 57⟩)
          [.expr (.call (.name "f" ⟨2, 0⟩) [.name "i" ⟨2, 2⟩] ⟨2, 1⟩)] ⟨1, 0⟩))
      (⟨⟨[⟨"f", some (.callable (.user ⟨.function, "f", ["n"],
          [.ret (some (.call (.name "f" ⟨1, 7⟩) [.name "n" ⟨1, 9⟩] ⟨1, 8⟩)) ⟨1, 0⟩]⟩)), false⟩]⟩,
        none, 0, false, Buffer.withInput [] none, .lowest⟩ : Machine Buffer) := by
  refine (bounded_settles _ ?_).2.1 _ (by decide)
  rintro s ⟨t, rfl | ht, slot, hslot, hvalue⟩
  · obtain rfl := List.mem_singleton.1 hslot
    cases hvalue
    rfl
  · cases ht

/-- A draw from the opposite of a number up to the number panics, whatever the generator, if the two
are finite but too far apart. -/
theorem expr_random_wide {m : Machine κ} (p₁ : Position)
    (hname : m.lookup "random" p₁ = .ok (.callable (.native .random))) {x : Float}
    (hx : x.isFinite = true) (hneg : (-x).isFinite = true) (hlt : -x < x)
    (hwide : (x - -x).isFinite = false) (p₂ p₃ p₄ p₅ : Position) (n : Nat) :
    expr (n + 3) (.call (.name "random" p₁) [.unary .minus (.literal (.float x) p₂) p₃,
      .literal (.float x) p₄] p₅) m = .panicked (-x) x m.console := by
  have hdraw : Native.draw m.draws [.float (-x), .float x] p₅ = .ok (.tooWide (-x) x) :=
    Native.drawFloat_wide m.draws rfl rfl hneg hx hlt hwide p₅
  simp only [expr, required, each, bind, pure, hname, Value.ofLiteral, UnaryOp.apply,
    Exec.ofExcept, Native.call, Functor.map, Native.drawNumber, hdraw]

/-- `x = random(-1e308, 1e308)`, with the number written out, neither gives a flow nor a fault: with
any amount of fuel, either the fuel runs out or the draw panics. -/
theorem bounded_panics :
    let s : Stmt := .assign (Target.plain "x") (.call (.name "random" ⟨0, 4⟩)
      [.unary .minus (.literal (.float 1e308) ⟨0, 12⟩) ⟨0, 11⟩, .literal (.float 1e308) ⟨0, 325⟩]
      ⟨0, 10⟩) ⟨0, 0⟩
    let m : Machine Buffer := Machine.start (Buffer.withInput [] none) false .lowest
    (m.Bounded ∧ s.Bounded) ∧
      (∃ enough, ∀ n, enough ≤ n →
        stmt n s m = .panicked (-1e308) 1e308 (Buffer.withInput [] none)) ∧
      ∀ n, (stmt n s m).machine? = none := by
  intro s m
  have hpanics : ∀ n, stmt (n + 4) s m = .panicked (-1e308) 1e308 m.console := by
    intro n
    have hdraw := expr_random_wide (m := m) ⟨0, 4⟩ rfl (x := 1e308) (by decide +kernel)
      (by decide +kernel) (by decide +kernel) (by decide +kernel) ⟨0, 12⟩ ⟨0, 11⟩ ⟨0, 325⟩ ⟨0, 10⟩ n
    simp only [s, stmt, required, bind, hdraw]
  refine ⟨⟨?_, rfl⟩, ⟨4, fun n hn => ?_⟩, fun n => ?_⟩
  · rintro sub ⟨t, rfl | ht, slot, hslot, -⟩
    · cases hslot
    · cases ht
  · obtain ⟨k, rfl⟩ := Nat.exists_eq_add_of_le' hn
    exact hpanics k
  · -- with less fuel than the draw takes, the run comes to nothing
    rcases Nat.lt_or_ge n 4 with hn | hn
    · obtain rfl | rfl | rfl | rfl : n = 0 ∨ n = 1 ∨ n = 2 ∨ n = 3 := by omega
      all_goals rfl
    · obtain ⟨k, rfl⟩ := Nat.exists_eq_add_of_le' hn
      rw [hpanics k]
      rfl

end Eval

end Primer
