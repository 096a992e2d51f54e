import Primer.Proofs.Counting
import Primer.Proofs.Drawing
import Primer.Proofs.Means
import Primer.Proofs.Outcome
import Primer.Session

/-!
# What a run can do to a machine

A run changes a machine by few means: it shows or takes a line, draws a number, writes a name, and
makes calls, each of which works on a table of its own and puts the caller's back. A `Footprint`
bounds what these means amount to, once for expressions and once for statements, and
`Footprint.evaluates_and_runs` says that every run stays within the bounds, whether it succeeds or
fails. Each invariant of runs is then a footprint, and its proof looks at the means only.

A footprint may rely on a test of syntax (`Stmt.all`). The same induction shows that from a machine
whose subroutines pass the test, a run of statements that pass it comes to such machines and to
such values only.
-/

set_option autoImplicit false

namespace Primer

variable {κ : Type} {p : Stmt → Bool}

/-- A bound on how a machine changes: nothing has to change, and changes add up. -/
structure Change (κ : Type) where
  Rel : Machine κ → Machine κ → Prop
  refl (m : Machine κ) : Rel m m
  trans {m m' m'' : Machine κ} (h : Rel m m') (h' : Rel m' m'') : Rel m m''

/-- Bounds on what expressions and statements that pass a test can do, which allow every means that
a run has: lines, draws, the writes of statements, and calls. -/
structure Footprint (κ : Type) (p : Stmt → Bool) where
  exprs : Change κ
  stmts : Change κ
  stmts_of_exprs {m m' : Machine κ} (h : exprs.Rel m m') : stmts.Rel m m'
  console (m : Machine κ) (console : κ) : exprs.Rel m { m with console := console }
  draws (m : Machine κ) (draws : Draws) : exprs.Rel m { m with draws := draws }
  write {s : Stmt} {target : Target} {v : Value} {pos : Position} {m m' : Machine κ}
    (hs : p s = true) (htarget : s.target? = some target)
    (h : Machine.assign target v pos m = .done () m') : stmts.Rel m m'
  call {m m' : Machine κ} (table : Table)
    (h : stmts.Rel { m with scope := some table, depth := m.depth + 1 } m') :
    exprs.Rel m { m' with scope := m.scope, depth := m'.depth - 1 }

/-! ## Outcomes within bounds -/

/-- The computation started with `m` and changed it within bounds; a machine that it left passes
the test, and a result that it gave is of the given sort. -/
inductive Outcome.Within {α : Type} (p : Stmt → Bool) (C : Change κ) (m : Machine κ)
    (A : α → Prop) : Outcome κ α → Prop
  | done {a : α} {m' : Machine κ} (ha : A a) (hm : m'.Meets p) (hc : C.Rel m m') :
      Within p C m A (.done a m')
  | failed {fault : Fault} {m' : Machine κ} (hm : m'.Meets p) (hc : C.Rel m m') :
      Within p C m A (.failed fault m')
  | panicked (least most : Float) (console : κ) : Within p C m A (.panicked least most console)
  | outOfFuel : Within p C m A .outOfFuel

/-- From every machine that passes the test the computation stays within bounds. -/
def Exec.Within {α : Type} (p : Stmt → Bool) (C : Change κ) (A : α → Prop) (x : Exec κ α) : Prop :=
  ∀ m : Machine κ, m.Meets p → (x m).Within p C m A

/-- The machine that is left meets the test and is within the change. -/
theorem Outcome.Within.machine {α : Type} {C : Change κ} {m m' : Machine κ} {A : α → Prop}
    {o : Outcome κ α} (h : o.Within p C m A) (hend : o.machine? = some m') :
    m'.Meets p ∧ C.Rel m m' := by
  cases h with
  | done _ hm hc =>
    obtain rfl := Option.some.inj hend
    exact ⟨hm, hc⟩
  | failed hm hc =>
    obtain rfl := Option.some.inj hend
    exact ⟨hm, hc⟩
  | panicked => cases hend
  | outOfFuel => cases hend

/-- The result has the property. -/
theorem Outcome.Within.value {α : Type} {C : Change κ} {m m' : Machine κ} {A : α → Prop} {a : α}
    (h : (Outcome.done a m').Within p C m A) : A a := by
  cases h with
  | done ha _ _ => exact ha

namespace Exec

variable {α β : Type} {C : Change κ} {A : α → Prop} {B : β → Prop}

theorem within_pure {a : α} (h : A a) : (pure a : Exec κ α).Within p C A :=
  fun m hm => .done h hm (C.refl m)

theorem within_exhausted : (exhausted : Exec κ α).Within p C A :=
  fun _ _ => .outOfFuel

theorem within_fail (fault : Fault) : (fail fault : Exec κ α).Within p C A :=
  fun m hm => .failed hm (C.refl m)

theorem within_ofExcept {r : Except Fault α} (h : Yields A r) :
    (ofExcept r : Exec κ α).Within p C A := by
  intro m hm
  cases r with
  | ok a => exact .done (h a rfl) hm (C.refl m)
  | error fault => exact .failed hm (C.refl m)

/-- Computations in a row stay within a change that can be made twice. -/
theorem Within.bind {x : Exec κ α} {f : α → Exec κ β} (hx : x.Within p C A)
    (hf : ∀ a, A a → (f a).Within p C B) : (x >>= f).Within p C B := by
  intro m hm
  have hfirst := hx m hm
  simp only [Bind.bind]
  generalize x m = o at hfirst ⊢
  cases hfirst with
  | outOfFuel => exact .outOfFuel
  | panicked => exact .panicked _ _ _
  | failed hm' hc => exact .failed hm' hc
  | @done a m' ha hm' hc =>
    -- the second computation starts within the change of the first
    have hsecond := hf a ha m' hm'
    dsimp only
    generalize f a m' = o at hsecond ⊢
    cases hsecond with
    | done hb hm'' hc' => exact .done hb hm'' (C.trans hc hc')
    | failed hm'' hc' => exact .failed hm'' (C.trans hc hc')
    | panicked => exact .panicked _ _ _
    | outOfFuel => exact .outOfFuel

/-- What follows from the sort of a result holds as well. -/
theorem Within.mono {A' : α → Prop} {x : Exec κ α} (hx : x.Within p C A)
    (hA : ∀ a, A a → A' a) : x.Within p C A' := by
  intro m hm
  have hwithin := hx m hm
  generalize x m = o at hwithin ⊢
  cases hwithin with
  | done ha hm' hc => exact .done (hA _ ha) hm' hc
  | failed hm' hc => exact .failed hm' hc
  | panicked => exact .panicked _ _ _
  | outOfFuel => exact .outOfFuel

/-- Wider bounds hold as well. -/
theorem Within.imp {C' : Change κ} {x : Exec κ α} (hx : x.Within p C A)
    (hC : ∀ {m m' : Machine κ}, C.Rel m m' → C'.Rel m m') : x.Within p C' A := by
  intro m hm
  have hwithin := hx m hm
  generalize x m = o at hwithin ⊢
  cases hwithin with
  | done ha hm' hc => exact .done ha hm' (hC hc)
  | failed hm' hc => exact .failed hm' (hC hc)
  | panicked => exact .panicked _ _ _
  | outOfFuel => exact .outOfFuel

/-- Computations within the same bounds in a row. -/
def within (p : Stmt → Bool) (C : Change κ) : Rules κ κ where
  Rel A x _ := x.Within p C A
  pure := within_pure
  fail _ := within_fail _
  exhausted := within_exhausted
  bind hx hf := Within.bind hx hf

end Exec

/-! ## Machines -/

namespace Machine

theorem meets_true (m : Machine κ) : m.Meets (fun _ => true) :=
  fun s _ => Stmt.allOf_true s.body

/-- What a name means meets the test. -/
theorem Meets.lookup {m : Machine κ} (hm : m.Meets p) (name : String) (pos : Position) :
    Yields (Value.Meets p) (m.lookup name pos) :=
  fun _ h => (m.meets_iff_carries.1 hm).lookup (fun _ => trivial) h

theorem Meets.enter {m : Machine κ} (hm : m.Meets p) {table : Table} (ht : table.Meets p)
    (depth : Nat) : Machine.Meets p { m with scope := some table, depth := depth } := by
  rw [meets_iff_carries] at hm ⊢
  exact hm.enter ht depth

theorem Meets.leave {m m' : Machine κ} (hm : m.Meets p) (hm' : m'.Meets p) (depth : Nat) :
    Machine.Meets p { m' with scope := m.scope, depth := depth } := by
  rw [meets_iff_carries] at hm hm' ⊢
  exact hm.leave hm' depth

/-- A machine meets the test when a value that does is assigned. -/
theorem Meets.assign {m m' : Machine κ} (hm : m.Meets p) {target : Target} {v : Value}
    (hv : v.Meets p) {pos : Position} (h : Machine.assign target v pos m = .done () m') :
    m'.Meets p := by
  rw [meets_iff_carries] at hm ⊢
  exact hm.assign hv h

end Machine

/-! ## Control flow -/

/-- Expressions are evaluated within bounds, to values that pass the test. -/
def EvaluatesWithin (p : Stmt → Bool) (C : Change κ) (eval : Expr → Exec κ (Option Value)) : Prop :=
  ∀ e, (eval e).Within p C fun v => ∀ w ∈ v, w.Meets p

/-- Statements that pass the test are run within bounds. -/
def RunsWithin (p : Stmt → Bool) (C : Change κ) (run : Stmt → Exec κ Flow) : Prop :=
  ∀ s : Stmt, s.all p = true → (run s).Within p C fun flow => ∀ w ∈ flow.value, w.Meets p

namespace Eval

variable {C : Change κ}

theorem within_required {e : Expr} {x : Exec κ (Option Value)}
    (hx : x.Within p C fun v => ∀ w ∈ v, w.Meets p) :
    (required e x).Within p C (Value.Meets p) := by
  refine hx.bind fun v hv => ?_
  cases v with
  | some w => exact Exec.within_pure (hv w rfl)
  | none => exact Exec.within_fail _

theorem within_each {eval : Expr → Exec κ (Option Value)} (heval : EvaluatesWithin p C eval)
    (es : List Expr) : (each eval es).Within p C fun vs => ∀ v ∈ vs, v.Meets p := by
  induction es with
  | nil => exact Exec.within_pure fun _ hv => absurd hv List.not_mem_nil
  | cons e es ih =>
    refine (within_required (heval e)).bind fun v hv => ?_
    refine ih.bind fun vs hvs => ?_
    apply Exec.within_pure
    intro w hw
    rcases List.mem_cons.1 hw with rfl | hw
    · exact hv
    · exact hvs w hw

theorem within_condition (subject : String) {e : Expr} {x : Exec κ (Option Value)}
    (hx : x.Within p C fun v => ∀ w ∈ v, w.Meets p) :
    (condition subject e x).Within p C fun _ => True :=
  (within_required hx).bind fun _ _ => Exec.within_ofExcept (yields_any _)

theorem within_bound (subject : String) {e : Expr} {x : Exec κ (Option Value)}
    (hx : x.Within p C fun v => ∀ w ∈ v, w.Meets p) :
    (bound subject e x).Within p C fun _ => True :=
  (within_required hx).bind fun _ _ => Exec.within_ofExcept (yields_any _)

/-- A block stays within the change if its statements do. -/
theorem within_block {run : Stmt → Exec κ Flow} (hrun : RunsWithin p C run) {body : List Stmt}
    (h : Stmt.allOf p body = true) :
    (block run body).Within p C fun flow => ∀ w ∈ flow.value, w.Meets p := by
  have hnext : ∀ w ∈ (Flow.next none).value, w.Meets p := fun _ hw => by cases hw
  change (Exec.within p C).Rel _ (block run body) (block run body)
  exact (Exec.within p C).block hnext fun s hs => hrun s (Stmt.forall_of_allOf h s hs)

end Eval

/-! ## Fragments and means -/

/-- The statements that pass a test. -/
def Fragment.tested (p : Stmt → Bool) : Fragment where
  names _ := True
  test := p
  values := Value.Meets p
  evaluated _ _ _ _ _ := trivial
  written _ _ := trivial
  scalar := Value.IsScalar.meets
  native _ := trivial
  body h := h
  defined h := by
    simp only [Stmt.all, Bool.and_eq_true] at h
    exact h.2

namespace Footprint

open Eval

variable (F : Footprint κ p)

/-- A statement that passes the test writes its target within the change. -/
theorem within_assign {s : Stmt} {target : Target} (hs : p s = true)
    (htarget : s.target? = some target) {v : Value} (hv : v.Meets p) (pos : Position) :
    (Machine.assign target v pos : Exec κ Unit).Within p F.stmts fun _ => True := by
  intro m hm
  cases h : Machine.assign target v pos m with
  | done _ m' => exact .done trivial (hm.assign hv h) (F.write hs htarget h)
  | failed fault m' =>
    obtain rfl := Machine.assign_failed h
    exact .failed hm (F.stmts.refl m')
  | panicked => exact .panicked _ _ _
  | outOfFuel => exact .outOfFuel

/-- What is said to a console and heard from it is within every change. -/
theorem within_exchange {α : Type} (answer : κ → Except String α × κ) (pos : Position) :
    (Machine.exchange answer pos).Within p F.exprs fun _ => True := by
  intro m hm
  have hline : ∀ console : κ, Machine.Meets p { m with console := console } := fun _ => hm
  unfold Machine.exchange
  split
  · next console _ => exact .done trivial (hline console) (F.console m console)
  · next console _ => exact .failed (hline console) (F.console m console)

theorem within_writeLine [Console κ] (s : String) (pos : Position) :
    (Machine.writeLine s pos : Exec κ Unit).Within p F.exprs fun _ => True := by
  rw [Machine.writeLine_eq]
  exact F.within_exchange _ pos

theorem within_readLine [Console κ] (prompt : String) (pos : Position) :
    (Machine.readLine prompt pos : Exec κ String).Within p F.exprs fun _ => True := by
  rw [Machine.readLine_eq]
  exact F.within_exchange _ pos

/-- A draw moves the generator on and nothing else. -/
theorem within_drawNumber (args : List Value) (pos : Position) :
    (Native.drawNumber args pos : Exec κ Value).Within p F.exprs Value.IsScalar := by
  intro m hm
  have hfair := Native.yields_draw args pos m.draws
  unfold Native.drawNumber
  split
  · next v draws hdraw => exact .done (hfair _ hdraw) hm (F.draws m draws)
  · exact .panicked _ _ _
  · exact .failed hm (F.exprs.refl m)

/-- To look a name up changes nothing. -/
theorem within_found (name : String) (pos : Position) :
    (Machine.found name pos : Exec κ Value).Within p F.exprs (Value.Meets p) :=
  fun m hm => Exec.within_ofExcept (hm.lookup name pos) m hm

/-- A call runs its body within the bounds for statements, and is itself within those for
expressions. -/
theorem within_call {α : Type} {A : α → Prop} {x : Exec κ α} (hx : x.Within p F.stmts A)
    {table : Table} (ht : table.Meets p) (pos : Position) :
    (Machine.limited pos (Machine.inCall table x)).Within p F.exprs A := by
  intro m hm
  have hbody := hx _ (hm.enter ht (m.depth + 1))
  unfold Machine.limited
  split
  · exact .failed hm (F.exprs.refl m)
  · unfold Machine.inCall
    generalize x _ = o at hbody ⊢
    cases hbody with
    | done ha hm' hc => exact .done ha (hm.leave hm' _) (F.call table hc)
    | failed hm' hc => exact .failed (hm.leave hm' _) (F.call table hc)
    | panicked => exact .panicked _ _ _
    | outOfFuel => exact .outOfFuel

theorem within_ifEcho {α : Type} {A : α → Prop} {x y : Exec κ α} (hx : x.Within p F.exprs A)
    (hy : y.Within p F.exprs A) : (Machine.ifEcho x y).Within p F.exprs A := by
  intro m hm
  unfold Machine.ifEcho
  split
  · exact hx m hm
  · exact hy m hm

section Runs

variable [Console κ]

/-- All means of a run are within the footprint. -/
def means : Means (Fragment.tested p) κ κ where
  exprs := Exec.within p F.exprs
  stmts := Exec.within p F.stmts
  lift hx := Exec.Within.imp hx F.stmts_of_exprs
  found _ pos := F.within_found _ pos
  assign hs htarget hv pos := F.within_assign hs htarget hv pos
  writeLine := F.within_writeLine
  readLine := F.within_readLine
  drawNumber := F.within_drawNumber
  inCall hx _ htable pos := F.within_call hx htable pos
  ifEcho := F.within_ifEcho

/-- **Runs stay within their footprint**, with any fuel. -/
theorem evaluates_and_runs (n : Nat) :
    EvaluatesWithin p F.exprs (expr (κ := κ) n) ∧ RunsWithin p F.stmts (stmt (κ := κ) n) := by
  constructor
  · intro e
    have hexpr := (F.means.evaluates_and_runs n).1 e fun _ _ => trivial
    exact Exec.Within.mono hexpr fun v hv => hv.1
  · exact fun s hs => (F.means.evaluates_and_runs n).2 s hs

/-- Every pass of a counting loop writes the counter before it runs the body. -/
theorem within_pass {n : Nat} (hstmt : RunsWithin p F.stmts (stmt (κ := κ) n)) {counter : String}
    {first last step : Expr} {body : List Stmt} {pos : Position}
    (hself : p (.forLoop counter first last step body pos) = true)
    (hbody : Stmt.allOf p body = true) (i : Int64) :
    (pass n counter body pos i : Exec κ Flow).Within p F.stmts
      fun flow => ∀ w ∈ flow.value, w.Meets p := by
  refine (F.within_assign hself rfl (v := .integer i) trivial pos).bind fun _ _ => ?_
  exact within_block hstmt hbody

theorem within_valueOf (n : Nat) (s : Stmt) :
    (valueOf n s : Exec κ _).Within p F.exprs fun v => ∀ w ∈ v, w.Meets p := by
  cases s with
  | expr e => exact (F.evaluates_and_runs n).1 e
  | _ => exact Exec.within_fail _

end Runs

/-! ## Programs and sessions -/

variable [Console κ] (G : Footprint κ fun _ => true)

/-- A run of a source stays within the change. -/
theorem within_lines (n : Nat) (source : List String) :
    (lines n source : Exec κ Unit).Within (fun _ => true) G.stmts fun _ => True := by
  unfold lines
  split
  · exact Exec.within_fail _
  · next program _ =>
    refine Exec.Within.bind (G.means.topLevels n (Stmt.allOf_true _)) fun _ _ => ?_
    split
    · exact Exec.within_pure trivial
    · exact Exec.within_fail _

/-- A line that is fed to a session stays within the change. -/
theorem rel_feed (n : Nat) (s : Session κ) (line : String) :
    G.stmts.Rel s.machine (s.feed n line).2.machine := by
  fun_cases Session.feed n s line with
  | case4 _ entry statements _ _ m hrun | case5 _ entry statements _ fault m hrun =>
    have hwithin := G.means.topLevels n (Stmt.allOf_true statements) s.machine
      s.machine.meets_true
    rw [hrun] at hwithin
    exact (hwithin.machine rfl).2
  | case6 _ _ _ _ _ _ console _ => exact G.stmts_of_exprs (G.console s.machine console)
  | _ => exact G.stmts.refl _

end Footprint

end Primer
