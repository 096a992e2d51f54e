import Primer.Eval.TopLevel
import Primer.Proofs.Fragment

/-!
# The means of a run

A run looks names up and writes them, shows and takes lines, draws numbers, and makes calls, each of
which works on a table of its own. `StmtMeans` are rules that hold of all of these, for the names
and the values of a fragment. By induction on fuel they hold of every expression and statement of
the fragment (`StmtMeans.evaluates_and_runs`). If they also hold of the question whether values are
shown, which is asked outside of all blocks only, they hold of programs (`Means.topLevels`).

Expressions and statements may have rules of their own: what an expression does is part of what a
statement may do, and the body of a call is run by the rules for statements, while the call is an
expression.
-/

set_option autoImplicit false

namespace Primer

/-! ## Computations on the state, as computations in a row -/

section Split

variable {κ α : Type}

/-- The value that a name is looked up as. -/
def Machine.found (name : String) (pos : Position) : Exec κ Value := fun m =>
  Exec.ofExcept (m.lookup name pos) m

/-- A computation that is refused at the limit of the depth. -/
def Machine.limited (pos : Position) (x : Exec κ α) : Exec κ α := fun m =>
  if Eval.maxDepth ≤ m.depth then .failed ⟨.callDepth Eval.maxDepth, pos⟩ m else x m

/-- A computation that is left out unless values are shown. -/
def Machine.ifEcho (x y : Exec κ α) : Exec κ α := fun m =>
  if m.echo then x m else y m

/-- What the console answers, as a computation. -/
def Machine.exchange (answer : κ → Except String α × κ) (pos : Position) : Exec κ α := fun m =>
  match answer m.console with
  | (.ok a, console) => .done a { m with console := console }
  | (.error text, console) => .failed ⟨.console text, pos⟩ { m with console := console }

/-- To show a line is an exchange with the console. -/
theorem Machine.writeLine_eq [Console κ] (s : String) (pos : Position) :
    Machine.writeLine s pos = Machine.exchange (κ := κ) (fun c => Console.writeLine c s) pos := by
  funext ⟨globals, scope, depth, echo, console, draws⟩
  dsimp only [Machine.writeLine, Machine.exchange]
  generalize Console.writeLine console s = given
  obtain ⟨_ | _, c⟩ := given <;> rfl

theorem Machine.readLine_eq [Console κ] (prompt : String) (pos : Position) :
    Machine.readLine prompt pos =
      Machine.exchange (κ := κ) (fun c => Console.readLine c prompt) pos := by
  funext ⟨globals, scope, depth, echo, console, draws⟩
  dsimp only [Machine.readLine, Machine.exchange]
  generalize Console.readLine console prompt = given
  obtain ⟨_ | _, c⟩ := given <;> rfl

namespace Eval

theorem expr_name [Dialogue κ] (n : Nat) (name : String) (pos : Position) :
    (expr (n + 1) (.name name pos) : Exec κ (Option Value)) = some <$> Machine.found name pos := by
  funext m
  simp only [expr, Machine.found, Functor.map]
  cases m.lookup name pos <;> rfl

/-- A call checks the number of arguments and the depth, then runs the body in a call. -/
theorem callUser_eq (run : Stmt → Exec κ Flow) (s : Subroutine) (args : List Value)
    (pos : Position) :
    callUser run s args pos =
      (Exec.ofExcept (checkArity s.name s.params.length s.params.length args.length pos) >>=
        fun _ => Flow.value <$>
          Machine.limited pos (Machine.inCall (bindParams s.params args) (block run s.body))) := by
  funext m
  simp only [callUser, bind]
  cases Exec.ofExcept (checkArity s.name s.params.length s.params.length args.length pos) m with
  | failed fault m' => rfl
  | panicked least most console => rfl
  | outOfFuel => rfl
  | done _ m' =>
    simp only [Machine.limited, Functor.map]
    by_cases hdeep : maxDepth ≤ m'.depth
    · simp only [hdeep, if_true]
    · simp only [hdeep, if_false]
      generalize Machine.inCall _ _ m' = o
      cases o <;> rfl

/-- A statement at the top level shows its value, if it has one and echo is on. -/
theorem topLevel_eq [Dialogue κ] (n : Nat) (s : Stmt) :
    (topLevel n s : Exec κ (Option Value)) =
      (stmt n s >>= fun flow => flow.value.elim (pure none) fun v =>
        Machine.ifEcho ((fun _ => some v) <$> Dialogue.writeLine v.shown s.position)
          (pure (some v))) := by
  funext m
  simp only [topLevel, bind]
  cases stmt n s m with
  | failed fault m' => rfl
  | panicked least most console => rfl
  | outOfFuel => rfl
  | done flow m' =>
    dsimp only
    cases flow.value with
    | none => rfl
    | some v =>
      simp only [Option.elim, Machine.ifEcho, Functor.map]
      generalize Dialogue.writeLine _ _ m' = o
      cases o <;> rfl

end Eval

end Split

/-- Rules for expressions and for statements that hold of the means of a statement of a fragment. -/
structure StmtMeans (L : Fragment) (κ κ' : Type) [Dialogue κ] [Dialogue κ'] where
  exprs : Rules κ κ'
  stmts : Rules κ κ'
  lift {α : Type} {A : α → Prop} {x : Exec κ α} {x' : Exec κ' α} (h : exprs.Rel A x x') :
    stmts.Rel A x x'
  found {name : String} (hname : L.names name) (pos : Position) :
    exprs.Rel L.values (Machine.found name pos) (Machine.found name pos)
  assign {s : Stmt} {target : Target} {v : Value} (hs : L.test s = true)
    (htarget : s.target? = some target) (hv : L.values v) (pos : Position) :
    stmts.Rel (fun _ => True) (Machine.assign target v pos) (Machine.assign target v pos)
  writeLine (s : String) (pos : Position) :
    exprs.Rel (fun _ => True) (Dialogue.writeLine s pos) (Dialogue.writeLine s pos)
  readLine (prompt : String) (pos : Position) :
    exprs.Rel (fun _ => True) (Dialogue.readLine prompt pos) (Dialogue.readLine prompt pos)
  drawNumber (args : List Value) (pos : Position) :
    exprs.Rel Value.IsScalar (Native.drawNumber args pos) (Native.drawNumber args pos)
  inCall {α : Type} {A : α → Prop} {x : Exec κ α} {x' : Exec κ' α} (hx : stmts.Rel A x x')
    {table : Table} (htable : table.Carries L.values) (pos : Position) :
    exprs.Rel A (Machine.limited pos (Machine.inCall table x))
      (Machine.limited pos (Machine.inCall table x'))

/-- Rules that hold of the means of a run of a fragment: outside of all blocks, a statement also
asks whether values are shown. -/
structure Means (L : Fragment) (κ κ' : Type) [Dialogue κ] [Dialogue κ'] extends
    StmtMeans L κ κ' where
  ifEcho {α : Type} {A : α → Prop} {x y : Exec κ α} {x' y' : Exec κ' α} (hx : exprs.Rel A x x')
    (hy : exprs.Rel A y y') : exprs.Rel A (Machine.ifEcho x y) (Machine.ifEcho x' y')

open Eval

variable {L : Fragment} {κ κ' : Type} [Dialogue κ] [Dialogue κ']

namespace StmtMeans

variable (M : StmtMeans L κ κ')

/-- Expressions that use names of the fragment keep to the rules, and give values of the
fragment. -/
def Evaluates (eval : Expr → Exec κ (Option Value)) (eval' : Expr → Exec κ' (Option Value)) :
    Prop :=
  ∀ e : Expr, (∀ x ∈ e.names, L.names x) → M.exprs.Rel (Given L.values e) (eval e) (eval' e)

/-- Statements of the fragment keep to the rules. -/
def Runs (run : Stmt → Exec κ Flow) (run' : Stmt → Exec κ' Flow) : Prop :=
  ∀ s : Stmt, s.all L.test = true →
    M.stmts.Rel (fun flow => ∀ w ∈ flow.value, L.values w) (run s) (run' s)

variable {M}

/-! ## What the language provides -/

theorem inputLine (args : List Value) (pos : Position) :
    M.exprs.Rel Value.IsScalar (Native.inputLine args pos) (Native.inputLine args pos) := by
  have htext : ∀ prompt, M.exprs.Rel Value.IsScalar
      (Value.text <$> Dialogue.readLine prompt pos)
      (Value.text <$> Dialogue.readLine prompt pos) := by
    intro prompt
    refine M.exprs.map (M.readLine prompt pos) fun s _ => ?_
    simp [Value.IsScalar, Value.kind]
  unfold Native.inputLine
  split
  · exact htext ""
  · exact htext _
  · exact M.exprs.fail rfl
  · exact M.exprs.fail rfl

/-- Provided subroutines have the means. -/
theorem native (native : Native) (args : List Value) (pos : Position) {e : Expr}
    (he : (missingValue e).isInternal = false) :
    M.exprs.Rel (Given L.values e) (native.call args pos) (native.call args pos) := by
  have hsome : ∀ {x : Exec κ Value} {x' : Exec κ' Value}, M.exprs.Rel Value.IsScalar x x' →
      M.exprs.Rel (Given L.values e) (some <$> x) (some <$> x') :=
    fun hx => M.exprs.map hx fun v hv => given_some (L.scalar hv) e
  have hpure : ∀ {r : Except Fault Value}, Yields Value.IsScalar r → Clean r →
      M.exprs.Rel (Given L.values e) (some <$> Exec.ofExcept r) (some <$> Exec.ofExcept r) :=
    fun hr hclean => hsome (M.exprs.ofExcept hr hclean)
  cases native with
  | print =>
    refine M.exprs.bind (A := fun _ => True) ?_ fun _ _ => ?_
    · refine M.exprs.bind (M.exprs.ofExcept (yields_any _) ?_) fun v _ => M.writeLine v.shown pos
      exact Native.clean_single args pos .print
    · exact M.exprs.pure ⟨by simp, fun _ => he⟩
  | input => exact hsome (inputLine args pos)
  | random => exact hsome (M.drawNumber args pos)
  | str => exact hpure (Native.yields_toText args pos) (Native.clean_toText args pos)
  | int => exact hpure (Native.yields_toInteger args pos) (Native.clean_toInteger args pos)
  | float => exact hpure (Native.yields_toFloat args pos) (Native.clean_toFloat args pos)
  | bool => exact hpure (Native.yields_toBoolean args pos) (Native.clean_toBoolean args pos)
  | asc => exact hpure (Native.yields_codeOf args pos) (Native.clean_codeOf args pos)
  | chr => exact hpure (Native.yields_ofCode args pos) (Native.clean_ofCode args pos)

/-! ## Statements in a row, and calls -/

/-- A flow without a value is of every fragment. -/
theorem next_of_fragment : ∀ w ∈ (Flow.next none).value, L.values w :=
  fun _ hw => by cases hw

section Statements

variable {run : Stmt → Exec κ Flow} {run' : Stmt → Exec κ' Flow} (hrun : M.Runs run run')

include hrun

theorem block {body : List Stmt} (h : Stmt.allOf L.test body = true) :
    M.stmts.Rel (fun flow => ∀ w ∈ flow.value, L.values w) (block run body) (block run' body) :=
  M.stmts.block next_of_fragment fun s hs => hrun s (Stmt.forall_of_allOf h s hs)

/-- Calls of subroutines have the means, body included. -/
theorem callUser {s : Subroutine} (hs : L.values (.callable (.user s))) {args : List Value}
    (hargs : ∀ v ∈ args, L.values v) (pos : Position) {e : Expr}
    (he : (missingValue e).isInternal = false) :
    M.exprs.Rel (Given L.values e) (callUser run s args pos) (callUser run' s args pos) := by
  rw [callUser_eq, callUser_eq]
  refine M.exprs.bind (M.exprs.ofExcept (yields_any _) (clean_checkArity _ _ _ _ _)) fun _ _ => ?_
  have hbody := M.inCall (block hrun (L.body hs)) (carries_bindParams s.params hargs) pos
  exact M.exprs.map hbody fun flow hflow => ⟨hflow, fun _ => he⟩

end Statements

/-! ## The evaluator -/

section Step

variable {n : Nat} (hexpr : M.Evaluates (expr n) (expr n)) (hstmt : M.Runs (stmt n) (stmt n))

include hexpr hstmt

/-- Evaluation has the means with one more unit of fuel. -/
theorem evaluates_succ : M.Evaluates (expr (n + 1)) (expr (n + 1)) := by
  intro e he
  cases e with
  | literal v pos => exact M.exprs.pure (given_some (L.scalar (Value.isScalar_ofLiteral v)) _)
  | name id pos =>
    rw [expr_name, expr_name]
    exact M.exprs.map (M.found (he id List.mem_cons_self) pos) fun v hv => given_some hv _
  | unary op e pos =>
    refine M.exprs.bind (M.exprs.required (hexpr e he)) fun v _ => ?_
    refine M.exprs.bind (M.exprs.ofExcept (op.yields_scalar v pos) (op.clean_apply v pos)) ?_
    exact fun w hw => M.exprs.pure (given_some (L.scalar hw) _)
  | binary op l r pos =>
    simp only [Expr.names, List.forall_mem_append] at he
    refine M.exprs.bind (M.exprs.required (hexpr l he.1)) fun a _ => ?_
    refine M.exprs.bind (M.exprs.required (hexpr r he.2)) fun b _ => ?_
    refine M.exprs.bind (M.exprs.ofExcept (op.yields_scalar pos a b) (op.clean_apply pos a b)) ?_
    exact fun w hw => M.exprs.pure (given_some (L.scalar hw) _)
  | call callee arguments pos =>
    simp only [Expr.names, List.forall_mem_append] at he
    have hcall : (missingValue (.call callee arguments pos)).isInternal = false := by
      cases callee <;> rfl
    have harguments := M.exprs.each (V := L.values) fun e h =>
      hexpr e (Expr.forall_of_namesOf he.2 e h)
    refine M.exprs.bind (M.exprs.required (hexpr callee he.1)) fun v hv => ?_
    -- a callee of the fragment brings along a body of the fragment
    cases v with
    | callable c =>
      cases c with
      | native native => exact M.exprs.bind harguments fun args _ => M.native native args pos hcall
      | user s =>
        exact M.exprs.bind harguments fun args hargs => callUser hstmt hv hargs pos hcall
    | _ => exact M.exprs.fail rfl

/-- Statements have the means with one more unit of fuel. -/
theorem runs_succ : M.Runs (stmt (n + 1)) (stmt (n + 1)) := by
  intro s hs
  have hself := Stmt.self_of_all hs
  have heval : ∀ e ∈ s.exprs, M.stmts.Rel (Given L.values e) (expr n e) (expr n e) :=
    fun e he => M.lift (hexpr e (L.evaluated hself e he))
  cases s with
  | expr e =>
    refine M.stmts.bind (heval e List.mem_cons_self) fun v hv => M.stmts.pure hv.1
  | assign target e pos =>
    refine M.stmts.bind (M.stmts.required (heval e List.mem_cons_self)) fun v hv => ?_
    refine M.stmts.bind (M.assign hself rfl hv pos) fun _ _ => ?_
    exact M.stmts.pure next_of_fragment
  | define kind name params body pos =>
    refine M.stmts.bind (M.assign hself rfl (L.defined hs) pos) fun _ _ => ?_
    exact M.stmts.pure next_of_fragment
  | ret value pos =>
    cases value with
    | none => exact M.stmts.pure fun _ hw => by cases hw
    | some e =>
      refine M.stmts.bind (M.stmts.required (heval e List.mem_cons_self)) fun v hv => ?_
      exact M.stmts.pure (given_some hv e).1
  | branch c body rest pos =>
    simp only [Stmt.all, Bool.and_eq_true] at hs
    simp only [Stmt.exprs, List.forall_mem_cons] at heval
    refine M.stmts.bind (M.stmts.condition _ heval.1) fun b _ => ?_
    cases b with
    | true => exact block hstmt hs.1.2
    | false =>
      refine M.stmts.arms next_of_fragment (fun c hc => M.stmts.condition _ (heval.2 c hc)) ?_
      exact fun body hbody => block hstmt (Arms.forall_of_all hs.2 body hbody)
  | whileLoop c body pos =>
    simp only [Stmt.all, Bool.and_eq_true] at hs
    have htest := M.stmts.condition "'while' condition" (heval c List.mem_cons_self)
    exact M.stmts.whileLoop next_of_fragment htest (block hstmt hs.2) n
  | untilLoop body c pos =>
    simp only [Stmt.all, Bool.and_eq_true] at hs
    have htest := M.stmts.condition "'until' condition" (heval c List.mem_cons_self)
    exact M.stmts.untilLoop next_of_fragment (block hstmt hs.2) htest n
  | forLoop counter first last step body pos =>
    simp only [Stmt.all, Bool.and_eq_true] at hs
    simp only [Stmt.exprs, List.forall_mem_cons] at heval
    refine M.stmts.bind (M.stmts.bound _ heval.1) fun a _ => ?_
    refine M.stmts.bind (M.stmts.bound _ heval.2.1) fun b _ => ?_
    refine M.stmts.bind (M.stmts.bound _ heval.2.2.1) fun s _ => ?_
    split
    · exact M.stmts.fail rfl
    · split
      · exact M.stmts.fail rfl
      · -- every pass writes the counter before it runs the body
        refine M.stmts.countLoop next_of_fragment (fun i => ?_) b s n a
        have hcounter : L.values (.integer i) := L.scalar (by simp [Value.IsScalar, Value.kind])
        exact M.stmts.bind (M.assign hself rfl hcounter pos) fun _ _ => block hstmt hs.2

end Step

/-- **What holds of the means of a run holds of the run**, with any fuel. -/
theorem evaluates_and_runs (M : StmtMeans L κ κ') (n : Nat) :
    M.Evaluates (expr n) (expr n) ∧ M.Runs (stmt n) (stmt n) := by
  induction n with
  | zero => exact ⟨fun _ _ => M.exprs.exhausted, fun _ _ => M.stmts.exhausted⟩
  | succ n ih => exact ⟨evaluates_succ ih.1 ih.2, runs_succ ih.1 ih.2⟩

end StmtMeans

/-! ## Programs -/

namespace Means

theorem topLevel (M : Means L κ κ') (n : Nat) {s : Stmt} (hs : s.all L.test = true) :
    M.stmts.Rel (fun _ => True) (topLevel n s) (topLevel n s) := by
  rw [topLevel_eq, topLevel_eq]
  refine M.stmts.bind ((M.evaluates_and_runs n).2 s hs) fun flow _ => ?_
  cases flow.value with
  | none => exact M.stmts.pure trivial
  | some v =>
    have hshown := M.exprs.map (B := fun _ => True) (f := fun _ => some v)
      (M.writeLine v.shown s.position) fun _ _ => trivial
    exact M.lift (M.ifEcho hshown (M.exprs.pure trivial))

theorem topLevels (M : Means L κ κ') (n : Nat) {stmts : List Stmt}
    (h : Stmt.allOf L.test stmts = true) :
    M.stmts.Rel (fun _ => True) (topLevels n stmts) (topLevels n stmts) := by
  induction stmts with
  | nil => exact M.stmts.pure trivial
  | cons s rest ih =>
    simp only [Stmt.allOf, Bool.and_eq_true] at h
    exact M.stmts.bind (M.topLevel n h.1) fun _ _ => ih h.2

end Means

end Primer
