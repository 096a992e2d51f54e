import Primer.Proofs.Drawing
import Primer.Proofs.Means

/-!
# Runs raise no internal faults

No run fails with a fault that the evaluator keeps for slips of its own: it never asks a statement
for a value, and an expression that ends without one is a call. This holds on every machine and of
every statement, parsed or not, as it is a matter of the means of a run (`Eval.proper_expr`,
`Eval.proper_stmt`).
-/

set_option autoImplicit false

namespace Primer

variable {κ α β : Type}

/-- If the computation is done, its result has the property; if it failed, then with a fault that
the program is to blame for; if it panicked, then over bounds that are too far apart. -/
inductive Outcome.Proper (A : α → Prop) : Outcome κ α → Prop
  | done {a : α} {m : Machine κ} (ha : A a) : Proper A (.done a m)
  | failed {fault : Fault} {m : Machine κ} (h : fault.cause.isInternal = false) :
      Proper A (.failed fault m)
  | panicked {least most : Float} {console : κ} (h : (most - least).isFinite = false) :
      Proper A (.panicked least most console)
  | outOfFuel : Proper A .outOfFuel

/-- A proper computation does not fail by a slip of the evaluator. -/
theorem Outcome.Proper.fault {A : α → Prop} {o : Outcome κ α} (h : o.Proper A) {fault : Fault}
    {m : Machine κ} (hfailed : o = .failed fault m) : fault.cause.isInternal = false := by
  subst hfailed
  cases h with
  | failed h => exact h

/-- The computation is proper from every machine. -/
def Exec.Proper (A : α → Prop) (x : Exec κ α) : Prop :=
  ∀ m, (x m).Proper A

namespace Exec

variable {A : α → Prop} {B : β → Prop}

/-- Proper computations in a row are proper. -/
theorem Proper.bind {x : Exec κ α} {f : α → Exec κ β} (hx : x.Proper A)
    (hf : ∀ a, A a → (f a).Proper B) : (x >>= f).Proper B := by
  intro m
  have hfirst := hx m
  simp only [Bind.bind]
  generalize x m = o at hfirst ⊢
  cases hfirst with
  | done ha => exact hf _ ha _
  | failed h => exact .failed h
  | panicked h => exact .panicked h
  | outOfFuel => exact .outOfFuel

/-- Proper computations in a row. -/
def proper (κ : Type) : Rules κ κ where
  Rel A x _ := x.Proper A
  pure h _ := .done h
  fail h _ := .failed h
  exhausted _ := .outOfFuel
  bind hx hf := Proper.bind hx hf

theorem proper_ofExcept {r : Except Fault α} (hr : Yields A r) (hclean : Clean r) :
    (ofExcept r : Exec κ α).Proper A := by
  change (proper κ).Rel A (ofExcept r) (ofExcept r)
  exact (proper κ).ofExcept hr hclean

end Exec

namespace Machine

theorem proper_found (name : String) (pos : Position) :
    (Machine.found name pos : Exec κ Value).Proper fun _ => True :=
  fun m => Exec.proper_ofExcept (yields_any _) (m.clean_lookup name pos) m

/-- An assignment is proper: it is refused for a constant only. -/
theorem proper_assign (target : Target) (v : Value) (pos : Position) :
    (Machine.assign target v pos : Exec κ Unit).Proper fun _ => True := by
  -- the only way to fail is that the name is a constant
  have htable : ∀ t : Table, Clean (t.assign target.name v target.sealing pos) := by
    intro t
    simp only [Table.assign, Slot.set]
    cases (t.slot target.name).isSealed with
    | true => exact clean_error rfl pos
    | false => exact clean_ok _
  intro m
  unfold Machine.assign
  split
  · next t _ _ =>
    split
    · exact .done trivial
    · next fault hassign => exact .failed (htable t fault hassign)
  · split
    · exact .done trivial
    · next fault hassign => exact .failed (htable m.globals fault hassign)

theorem proper_exchange (answer : κ → Except String α × κ) (pos : Position) :
    (Machine.exchange answer pos).Proper fun _ => True := by
  intro m
  unfold Machine.exchange
  split
  · exact .done trivial
  · exact .failed rfl

theorem proper_writeLine [Console κ] (s : String) (pos : Position) :
    (Machine.writeLine s pos : Exec κ Unit).Proper fun _ => True := by
  rw [Machine.writeLine_eq]
  exact proper_exchange _ pos

theorem proper_readLine [Console κ] (prompt : String) (pos : Position) :
    (Machine.readLine prompt pos : Exec κ String).Proper fun _ => True := by
  rw [Machine.readLine_eq]
  exact proper_exchange _ pos

theorem proper_limited {A : α → Prop} {x : Exec κ α} (hx : x.Proper A) (pos : Position) :
    (Machine.limited pos x).Proper A := by
  intro m
  unfold Machine.limited
  split
  · exact .failed rfl
  · exact hx m

theorem proper_inCall {A : α → Prop} {x : Exec κ α} (hx : x.Proper A) (table : Table) :
    (Machine.inCall table x).Proper A := by
  intro m
  have hbody := hx { m with scope := some table, depth := m.depth + 1 }
  unfold Machine.inCall
  generalize x { m with scope := some table, depth := m.depth + 1 } = o at hbody ⊢
  cases hbody with
  | done ha => exact .done ha
  | failed h => exact .failed h
  | panicked h => exact .panicked h
  | outOfFuel => exact .outOfFuel

theorem proper_ifEcho {A : α → Prop} {x y : Exec κ α} (hx : x.Proper A) (hy : y.Proper A) :
    (Machine.ifEcho x y).Proper A := by
  intro m
  unfold Machine.ifEcho
  split
  · exact hx m
  · exact hy m

end Machine

/-- A draw panics only over a range that is too wide. -/
theorem Native.proper_drawNumber (args : List Value) (pos : Position) :
    (Native.drawNumber args pos : Exec κ Value).Proper Value.IsScalar := by
  intro m
  have hfair := Native.yields_draw args pos m.draws
  have hclean := Native.clean_draw args pos m.draws
  unfold Native.drawNumber
  split
  · next v draws hdraw => exact .done (hfair _ hdraw)
  · next least most hdraw => exact .panicked (hfair _ hdraw)
  · next fault hdraw => exact .failed (hclean fault hdraw)

namespace Eval

variable [Console κ]

/-- All means of a run are proper. -/
def properMeans (κ : Type) [Console κ] : Means Fragment.whole κ κ where
  exprs := Exec.proper κ
  stmts := Exec.proper κ
  lift h := h
  found _ pos := Machine.proper_found _ pos
  assign _ _ _ pos := Machine.proper_assign _ _ pos
  writeLine := Machine.proper_writeLine
  readLine := Machine.proper_readLine
  drawNumber := Native.proper_drawNumber
  inCall {_ _ _ _} hx table _ pos := Machine.proper_limited (Machine.proper_inCall hx table) pos
  ifEcho hx hy := Machine.proper_ifEcho hx hy

/-- **Evaluating raises no internal fault**, from any machine and with any fuel; only a call ends
without a value. -/
theorem proper_expr (n : Nat) (e : Expr) :
    (expr n e : Exec κ _).Proper (Given Fragment.whole.values e) :=
  ((properMeans κ).evaluates_and_runs n).1 e fun _ _ => trivial

/-- **Running raises no internal fault**, from any machine and with any fuel. -/
theorem proper_stmt (n : Nat) (s : Stmt) :
    (stmt n s : Exec κ _).Proper fun flow => ∀ w ∈ flow.value, Fragment.whole.values w :=
  ((properMeans κ).evaluates_and_runs n).2 s (Stmt.all_true s)

/-- Nor does running a block. -/
theorem proper_block (n : Nat) (body : List Stmt) :
    (block (stmt n) body : Exec κ _).Proper
      fun flow => ∀ w ∈ flow.value, Fragment.whole.values w := by
  change (Exec.proper κ).Rel _ (block (stmt n) body) (block (stmt n) body)
  exact (Exec.proper κ).block StmtMeans.next_of_fragment fun s _ => proper_stmt n s

theorem proper_topLevel (n : Nat) (s : Stmt) :
    (topLevel n s : Exec κ _).Proper fun _ => True :=
  (properMeans κ).topLevel n (Stmt.all_true s)

end Eval

end Primer
