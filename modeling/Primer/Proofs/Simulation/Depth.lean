import Primer.Proofs.Footprint.Calls
import Primer.Proofs.Session.Agreement
import Primer.Proofs.Simulation

/-!
# The depth does nothing but limit

The depth of a machine is read in one place only, where a call checks it against the limit. So two
runs that differ in their depth go the same way up to a call that only the deeper one refuses, and
the fault of that call ends the deeper run (`Simulation.deeper`). If it ends in another way, the
shallower run ends in this way too, at its own depth.
-/

set_option autoImplicit false

namespace Primer

variable {κ : Type}

/-- The machine as it would be at another depth. -/
def Machine.atDepth (m : Machine κ) (depth : Nat) : Machine κ := { m with depth := depth }

/-- The outcome with the machine at another depth. -/
def Outcome.atDepth {α : Type} (o : Outcome κ α) (depth : Nat) : Outcome κ α :=
  match o with
  | .done a m => .done a (m.atDepth depth)
  | .failed fault m => .failed fault (m.atDepth depth)
  | .panicked least most console => .panicked least most console
  | .outOfFuel => .outOfFuel

/-- The simulation of a run by a shallower one. The deeper run stops at a call that it refuses. -/
def Simulation.deeper (κ : Type) [Console κ] : Simulation Fragment.whole κ κ :=
  { ofFaults Fragment.whole κ fun fault => fault.cause = .callDepth Eval.maxDepth with
    Depth := fun d d' => d' ≤ d
    enter := fun h => Nat.succ_le_succ h
    leave := fun h => Nat.sub_le_sub_right h 1
    limit := by
      intro d d' h c c' _ pos
      by_cases hd : Eval.maxDepth ≤ d
      · exact Or.inr ⟨hd, rfl⟩
      · exact Or.inl ⟨fun hd' => absurd hd' hd, fun hd' => absurd (Nat.le_trans hd' h) hd⟩ }

namespace Eval

variable [Console κ]

/-- A machine may be put beside itself less deep in calls. -/
theorem coupled_atDepth {d d' : Nat} (h : d' ≤ d) (m : Machine κ) :
    (Simulation.deeper κ).Coupled (m.atDepth d) (m.atDepth d') :=
  ⟨rfl, rfl, h, rfl, rfl, rfl, Machine.carries_whole _⟩

/-- Two machines side by side differ in their depth only. -/
theorem eq_atDepth_of_coupled {m m' : Machine κ} (h : (Simulation.deeper κ).Coupled m m') :
    m' = m.atDepth m'.depth := by
  obtain ⟨globals, scope, depth, echo, console, draws⟩ := m
  obtain ⟨globals', scope', depth', echo', console', draws'⟩ := m'
  obtain ⟨hglobals, hscope, -, hecho, hconsole, hdraws, -⟩ := h
  cases hglobals
  cases hscope
  cases hecho
  cases hconsole
  cases hdraws
  rfl

/-- A computation that looks at the depth in calls only, and leaves it as it was, does at a lower
depth what it does at a higher one, unless it is stopped there. -/
theorem atDepth_of_matches {α : Type} {A : α → Prop} {x : Exec κ α}
    (hx : (Simulation.deeper κ).Matches A x x)
    (hlevel : ∀ m m', (x m).machine? = some m' → m'.depth = m.depth) {d d' : Nat} (h : d' ≤ d)
    (m : Machine κ) (hlimit : ∀ pos, (x (m.atDepth d)).fault? ≠ some ⟨.callDepth maxDepth, pos⟩) :
    x (m.atDepth d') = (x (m.atDepth d)).atDepth d' := by
  have hafter := hx.live (coupled_atDepth h m)
  have hdepth := hlevel (m.atDepth d')
  generalize x (m.atDepth d) = o, x (m.atDepth d') = o' at hafter hdepth hlimit ⊢
  cases hafter with
  | @done a m₁ m₁' _ hm =>
    have hd' : m₁'.depth = d' := hdepth m₁' rfl
    rw [eq_atDepth_of_coupled hm, hd']
    rfl
  | @failed fault m₁ m₁' hm =>
    have hd' : m₁'.depth = d' := hdepth m₁' rfl
    rw [eq_atDepth_of_coupled hm, hd']
    rfl
  | @panicked least most c c' hconsole =>
    obtain rfl : c = c' := hconsole
    rfl
  | outOfFuel => rfl
  | @stopped fault m₁ o' halone =>
    -- the deeper run was stopped by the limit, which was ruled out
    have hcause : fault.cause = .callDepth maxDepth := by
      cases halone with
      | done _ hpast => exact hpast.stopped
      | failed hpast => exact hpast.stopped
      | panicked hstopped => exact hstopped
      | outOfFuel hpast => exact hpast.stopped
    exact absurd (congrArg some (congrArg (Fault.mk · fault.position) hcause))
      (hlimit fault.position)

/-- **The depth of calls does nothing but limit.** Take a statement that is asked for a value, one
that is run, or a block, on machines that are equal but for their depth. If it does not end, at the
greater depth, with the fault that calls are nested too deeply, then it ends at the lower depth in
the same way: with the same value, flow or fault, and with the same tables, console and draws, at
the depth at which it began. -/
theorem depth_only_limits {d d' : Nat} (h : d' ≤ d) (m : Machine κ) (n : Nat) :
    (∀ s : Stmt,
      (∀ pos, (valueOf n s (m.atDepth d)).fault? ≠ some ⟨.callDepth 1500, pos⟩) →
      valueOf n s (m.atDepth d') = (valueOf n s (m.atDepth d)).atDepth d') ∧
    (∀ s : Stmt,
      (∀ pos, (stmt n s (m.atDepth d)).fault? ≠ some ⟨.callDepth 1500, pos⟩) →
      stmt n s (m.atDepth d') = (stmt n s (m.atDepth d)).atDepth d') ∧
    ∀ body : List Stmt,
      (∀ pos, (block (stmt n) body (m.atDepth d)).fault? ≠ some ⟨.callDepth 1500, pos⟩) →
      block (stmt n) body (m.atDepth d') = (block (stmt n) body (m.atDepth d)).atDepth d' := by
  -- side by side, the less deep run meets the limit later
  let S := Simulation.deeper κ
  refine ⟨fun s hlimit => ?_, fun s hlimit => ?_, fun body hlimit => ?_⟩
  · cases s with
    | expr e =>
      have hexpr := S.matches_expr n (e := e) fun _ _ => trivial
      refine atDepth_of_matches hexpr (fun _ _ hend => ?_) h m hlimit
      exact (restored_expr n e hend).depth
    | _ => rfl
  · refine atDepth_of_matches (S.matches_stmt n (Stmt.all_true s)) (fun _ _ hend => ?_) h m hlimit
    exact (sameLevel_stmt n s hend).depth
  · refine atDepth_of_matches (S.matches_block n (Stmt.allOf_true body)) (fun _ _ hend => ?_) h m
      hlimit
    exact (sameLevel_block n body hend).depth

/-- A call at the last depth that allows one does what it does outside of all calls: it prints a
line and gives a value. One call deeper it is refused, and nothing is printed. -/
theorem depth_only_limits_call :
    let f : Subroutine := ⟨.function, "f", [],
      [.expr (.call (.name "print" ⟨0, 0⟩) [.literal (.text "in f") ⟨0, 6⟩] ⟨0, 5⟩),
        .ret (some (.literal (.integer 1) ⟨1, 7⟩)) ⟨1, 0⟩]⟩
    let m : Machine Buffer := ⟨Table.empty.put ⟨"f", some (.callable (.user f)), false⟩, none, 0,
      false, Buffer.withInput [] none, .lowest⟩
    let after : Machine Buffer := { m with console := ⟨#["in f"], #[], [], none⟩ }
    let e : Expr := .call (.name "f" ⟨0, 0⟩) [] ⟨0, 1⟩
    valueOf 5 (.expr e) (m.atDepth 0) = (valueOf 5 (.expr e) (m.atDepth 1499)).atDepth 0 ∧
    stmt 5 (.expr e) (m.atDepth 0) = (stmt 5 (.expr e) (m.atDepth 1499)).atDepth 0 ∧
    block (stmt 5) [.expr e] (m.atDepth 0) =
      (block (stmt 5) [.expr e] (m.atDepth 1499)).atDepth 0 ∧
    valueOf 5 (.expr e) (m.atDepth 0) = .done (some (.integer 1)) (after.atDepth 0) ∧
    stmt 5 (.expr e) (m.atDepth 0) = .done (.next (some (.integer 1))) (after.atDepth 0) ∧
    block (stmt 5) [.expr e] (m.atDepth 0) = .done (.next none) (after.atDepth 0) ∧
    valueOf 5 (.expr e) (m.atDepth 1500) =
      .failed ⟨.callDepth 1500, ⟨0, 1⟩⟩ (m.atDepth 1500) := by
  intro f m after e
  have hdeeper : 0 ≤ 1499 := by decide
  have hsame := depth_only_limits hdeeper m 5
  exact ⟨hsame.1 (.expr e) nofun, hsame.2.1 (.expr e) nofun, hsame.2.2 [.expr e] nofun, rfl, rfl,
    rfl, rfl⟩

end Eval

end Primer
