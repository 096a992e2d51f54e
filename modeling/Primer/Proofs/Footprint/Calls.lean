import Primer.Proofs.Footprint

/-!
# Calls put the caller's state back

A call works on a table of its own, one call deeper, and ends with the caller's table and depth
again, however its body ends. So an expression, whatever calls it makes, leaves the table of the
active call and the depth as they were, and a statement leaves the depth and whether a call is
active (`Footprint.calls`).

As the depth does not move while a body runs, the check that a call makes before its body bounds
the depth of everything in the body: what statements would do at a greater depth is of no
consequence (`Eval.callUser_congr`).
-/

set_option autoImplicit false

namespace Primer

variable {κ : Type}

/-- The second machine has the table of the active call, the depth and the flag of the first. -/
structure Machine.Restored (m m' : Machine κ) : Prop where
  scope : m'.scope = m.scope
  depth : m'.depth = m.depth
  echo : m'.echo = m.echo

/-- The second machine is as deep in calls as the first. -/
structure Machine.SameLevel (m m' : Machine κ) : Prop where
  scope : m'.scope = none ↔ m.scope = none
  depth : m'.depth = m.depth
  echo : m'.echo = m.echo

/-- What leaves the tables as they are leaves them on the same level. -/
theorem Machine.Restored.sameLevel {m m' : Machine κ} (h : m.Restored m') : m.SameLevel m' :=
  ⟨by rw [h.scope], h.depth, h.echo⟩

theorem Machine.SameLevel.trans {m m' m'' : Machine κ} (h : m.SameLevel m')
    (h' : m'.SameLevel m'') : m.SameLevel m'' :=
  ⟨h'.scope.trans h.scope, h'.depth.trans h.depth, h'.echo.trans h.echo⟩

/-- An assignment does not enter or leave a call. -/
theorem Machine.sameLevel_assign {target : Target} {v : Value} {pos : Position} {m m' : Machine κ}
    (h : Machine.assign target v pos m = .done () m') : m.SameLevel m' := by
  rcases Machine.assign_cases h with ⟨t, t', ht, -, -, rfl⟩ | ⟨t', -, -, rfl⟩
  · exact ⟨by simp [ht], rfl, rfl⟩
  · exact ⟨Iff.rfl, rfl, rfl⟩

/-- Expressions restore the caller's state, and statements stay at their level. -/
def Footprint.calls (κ : Type) (p : Stmt → Bool) : Footprint κ p where
  exprs :=
    { Rel := Machine.Restored
      refl := fun _ => ⟨rfl, rfl, rfl⟩
      trans := fun h h' =>
        ⟨h'.scope.trans h.scope, h'.depth.trans h.depth, h'.echo.trans h.echo⟩ }
  stmts :=
    { Rel := Machine.SameLevel
      refl := fun _ => ⟨Iff.rfl, rfl, rfl⟩
      trans := Machine.SameLevel.trans }
  stmts_of_exprs := Machine.Restored.sameLevel
  console _ _ := ⟨rfl, rfl, rfl⟩
  draws _ _ := ⟨rfl, rfl, rfl⟩
  write _ _ h := Machine.sameLevel_assign h
  call _ h := ⟨rfl, by simp [h.depth], h.echo⟩

namespace Eval

section Blocks

variable {run run' : Stmt → Exec κ Flow} {P : Machine κ → Prop}

/-- What statements do on machines that a block never meets does not matter to the block. -/
theorem block_congr (hrun : ∀ s m, P m → run s m = run' s m)
    (hkeep : ∀ s m m', P m → (run' s m).machine? = some m' → P m') (body : List Stmt) :
    ∀ m, P m → block run body m = block run' body m := by
  induction body with
  | nil => exact fun _ _ => rfl
  | cons s rest ih =>
    intro m hm
    have hend := hkeep s m
    simp only [block, bind]
    rw [hrun s m hm]
    cases hs : run' s m with
    | failed fault m' => rfl
    | panicked least most console => rfl
    | outOfFuel => rfl
    | done flow m' =>
      rw [hs] at hend
      cases flow with
      | next v => exact ih m' (hend m' hm rfl)
      | returned v => rfl

end Blocks

variable [Console κ]

/-- An expression leaves no call open, however it ends. -/
theorem restored_expr (n : Nat) (e : Expr) {m m' : Machine κ}
    (h : (expr n e m).machine? = some m') : m.Restored m' :=
  (((Footprint.calls κ fun _ => true).evaluates_and_runs n).1 e m m.meets_true).machine h |>.2

/-- A statement leaves no call open, however it ends. -/
theorem sameLevel_stmt (n : Nat) (s : Stmt) {m m' : Machine κ}
    (h : (stmt n s m).machine? = some m') : m.SameLevel m' :=
  (((Footprint.calls κ fun _ => true).evaluates_and_runs n).2 s (Stmt.all_true s) m
    m.meets_true).machine h |>.2

theorem sameLevel_block (n : Nat) (body : List Stmt) {m m' : Machine κ}
    (h : (block (stmt n) body m).machine? = some m') : m.SameLevel m' :=
  (within_block ((Footprint.calls κ fun _ => true).evaluates_and_runs n).2 (Stmt.allOf_true body) m
    m.meets_true).machine h |>.2

theorem restored_required (n : Nat) (e : Expr) {m m' : Machine κ}
    (h : (required e (expr n e) m).machine? = some m') : m.Restored m' :=
  (within_required (((Footprint.calls κ fun _ => true).evaluates_and_runs n).1 e) m
    m.meets_true).machine h |>.2

/-- An assignment writes nothing if it fails. -/
theorem scope_of_assign_failed {n : Nat} {target : Target} {e : Expr} {pos : Position}
    {m m' : Machine κ} {fault : Fault} (h : stmt n (.assign target e pos) m = .failed fault m') :
    m'.scope = m.scope := by
  cases n with
  | zero => cases h
  | succ n =>
    simp only [stmt] at h
    rcases Exec.bind_eq_failed h with hvalue | ⟨v, m₁, hvalue, hwrite⟩
    · exact (restored_required n e (by rw [hvalue]; rfl)).scope
    · have hrestored : m.Restored m₁ := restored_required n e (by rw [hvalue]; rfl)
      rcases Exec.bind_eq_failed hwrite with hassign | ⟨_, m₂, -, hpure⟩
      · obtain rfl := Machine.assign_failed hassign
        exact hrestored.scope
      · cases hpure

/-- What statements would do deeper than the limit is of no consequence to a call, as none of its
body runs there. -/
theorem callUser_congr {n : Nat} {run : Stmt → Exec κ Flow}
    (hrun : ∀ (s : Stmt) (m : Machine κ), m.depth ≤ maxDepth → run s m = stmt n s m)
    (s : Subroutine) (args : List Value) (pos : Position) :
    callUser run s args pos = callUser (stmt n) s args pos := by
  -- statements keep the depth, so the whole body is run below the limit
  have hblock : ∀ m : Machine κ, m.depth ≤ maxDepth →
      block run s.body m = block (stmt n) s.body m := by
    refine block_congr hrun (fun t m m' hm hend => ?_) s.body
    rw [(sameLevel_stmt n t hend).depth]
    exact hm
  funext m
  simp only [callUser, bind]
  cases Exec.ofExcept (checkArity s.name s.params.length s.params.length args.length pos) m with
  | failed fault m' => rfl
  | panicked least most console => rfl
  | outOfFuel => rfl
  | done _ m' =>
    dsimp only
    -- at the limit neither body is run
    by_cases hdeep : maxDepth ≤ m'.depth
    · rw [if_pos hdeep, if_pos hdeep]
    · have hbody := hblock
        { m' with scope := some (bindParams s.params args), depth := m'.depth + 1 }
        (Nat.lt_of_not_le hdeep)
      rw [if_neg hdeep, if_neg hdeep, Machine.inCall, Machine.inCall, hbody]

/-- **Calls put the caller's state back.** An expression that ends, with or without a value or with
a fault, leaves the table of the active call, the depth and the flag as they were. A statement or a
block leaves the depth as it was, and a call active exactly if one was; an assignment that fails
does not touch the table of the active call. So the body of a call ends as deep as it began, and
taking one from its depth undoes the one that was added. A program that is run outside of all calls
ends outside of all calls. And the body of a call never runs deeper than the limit: the call is the
same whatever statements do there. -/
theorem calls_restore :
    (∀ (n : Nat) (e : Expr) (m m' : Machine κ), (expr n e m).machine? = some m' →
      m'.scope = m.scope ∧ m'.depth = m.depth ∧ m'.echo = m.echo) ∧
    (∀ (n : Nat) (s : Stmt) (m m' : Machine κ), (stmt n s m).machine? = some m' →
      m'.depth = m.depth ∧ (m'.scope = none ↔ m.scope = none)) ∧
    (∀ (n : Nat) (body : List Stmt) (m m' : Machine κ),
      (block (stmt n) body m).machine? = some m' →
      m'.depth = m.depth ∧ (m'.scope = none ↔ m.scope = none)) ∧
    (∀ (n : Nat) (target : Target) (e : Expr) (pos : Position) (m m' : Machine κ) (fault : Fault),
      stmt n (.assign target e pos) m = .failed fault m' → m'.scope = m.scope) ∧
    (∀ (n : Nat) (table : Table) (body : List Stmt) (m m' : Machine κ),
      (block (stmt n) body { m with scope := some table, depth := m.depth + 1 }).machine? =
        some m' → 0 < m'.depth ∧ m'.depth - 1 = m.depth) ∧
    (∀ (n : Nat) (source : List String) (m m' : Machine κ), m.depth = 0 → m.scope = none →
      (lines n source m).machine? = some m' → m'.depth = 0 ∧ m'.scope = none) ∧
    ∀ (n : Nat) (run : Stmt → Exec κ Flow),
      (∀ (s : Stmt) (m : Machine κ), m.depth ≤ 1500 → run s m = stmt n s m) →
      ∀ (s : Subroutine) (args : List Value) (pos : Position),
        callUser run s args pos = callUser (stmt n) s args pos := by
  refine ⟨?_, ?_, ?_, ?_, ?_, ?_, ?_⟩
  · intro n e m m' hend
    have h := restored_expr n e hend
    exact ⟨h.scope, h.depth, h.echo⟩
  · intro n s m m' hend
    have h := sameLevel_stmt n s hend
    exact ⟨h.depth, h.scope⟩
  · intro n body m m' hend
    have h := sameLevel_block n body hend
    exact ⟨h.depth, h.scope⟩
  · intro n target e pos m m' fault hfailed
    exact scope_of_assign_failed hfailed
  · -- one call more is active while a body is run
    intro n table body m m' hend
    have h := (sameLevel_block n body hend).depth
    simp [h]
  · intro n source m m' hdepth hscope hend
    have h := ((Footprint.calls κ fun _ => true).within_lines n source m m.meets_true).machine hend
    exact ⟨h.2.depth.trans hdepth, h.2.scope.2 hscope⟩
  · intro n run hrun s args pos
    exact callUser_congr hrun s args pos

/-- A division by zero three calls deep ends the program outside of all calls; a failed assignment
in a call keeps the table of the call; and a call is the same if no statement is run below the
limit. -/
theorem calls_restore_nested :
    (∃ m', (lines 30 ["function f(n)", "if n == 0 then", "return 1 / n", "endif",
        "return f(n - 1)", "endfunction", "f(2)"]
        (Machine.start (Buffer.withInput [] none) false .lowest)).machine? = some m' ∧
      m'.depth = 0 ∧ m'.scope = none) ∧
    (∃ fault m', stmt 5 (.assign (Target.plain "x") (.name "y" ⟨0, 4⟩) ⟨0, 0⟩)
        ⟨Table.empty, some (bindParams ["x"] [.integer 1]), 1, false, Buffer.withInput [] none,
          .lowest⟩ = .failed fault m' ∧ m'.scope = some (bindParams ["x"] [.integer 1])) ∧
    callUser (fun s m => if m.depth ≤ 1500 then stmt 5 s m else .outOfFuel)
        ⟨.procedure, "q", [], [.ret none ⟨0, 0⟩]⟩ [] ⟨0, 0⟩ =
      callUser (stmt 5 : Stmt → Exec Buffer Flow) ⟨.procedure, "q", [], [.ret none ⟨0, 0⟩]⟩ []
        ⟨0, 0⟩ := by
  refine ⟨?_, ?_, ?_⟩
  · have hends : (lines 30 ["function f(n)", "if n == 0 then", "return 1 / n", "endif",
        "return f(n - 1)", "endfunction", "f(2)"]
        (Machine.start (Buffer.withInput [] none) false .lowest)).machine?.isSome = true := by
      decide +kernel
    obtain ⟨m', hm'⟩ := Option.isSome_iff_exists.1 hends
    exact ⟨m', hm', calls_restore.2.2.2.2.2.1 30 _ _ m' rfl rfl hm'⟩
  · obtain ⟨fault, m', hfailed⟩ : ∃ fault m',
        stmt 5 (.assign (Target.plain "x") (.name "y" ⟨0, 4⟩) ⟨0, 0⟩)
          ⟨Table.empty, some (bindParams ["x"] [.integer 1]), 1, false, Buffer.withInput [] none,
            .lowest⟩ = .failed fault m' := ⟨_, _, rfl⟩
    exact ⟨fault, m', hfailed, calls_restore.2.2.2.1 5 _ _ _ _ m' fault hfailed⟩
  · exact calls_restore.2.2.2.2.2.2 5 _ (fun _ _ hdepth => if_pos hdepth) _ _ _

end Eval

end Primer
