import Primer.Proofs.Rendering
import Primer.Proofs.Rules

/-!
# How well-formed statements end

A well-formed statement returns only where a subroutine is around it, and inside a procedure it
returns no value (`Eval.ends_stmt`). This is a matter of syntax: it holds on every machine, whatever
values its tables hold, as a call ends the flow of the body that it runs. So a procedure whose body
is well formed yields no value when it is called (`Eval.ends_callUser`).
-/

set_option autoImplicit false

namespace Primer

variable {κ α β : Type}

/-- Whether a flow can come out of a statement that stands in the given subroutine. -/
def Flow.Fits (inside : Option SubroutineKind) (flow : Flow) : Prop :=
  ∀ v, flow = .returned v → inside ≠ none ∧ (inside = some .procedure → v = none)

theorem Flow.fits_next (inside : Option SubroutineKind) (v : Option Value) :
    (Flow.next v).Fits inside := by
  rintro w ⟨⟩

/-- If the computation is done, its result has the property. -/
def Exec.Ends (P : α → Prop) (x : Exec κ α) : Prop :=
  ∀ m a m', x m = .done a m' → P a

namespace Exec

theorem ends_any (x : Exec κ α) : x.Ends fun _ => True := fun _ _ _ _ => trivial

/-- Results of computations in a row. -/
def ending (κ : Type) : Rules κ κ where
  Rel A x _ := x.Ends A
  pure h m _ m' hdone := by
    cases hdone
    exact h
  fail _ m _ m' hdone := by cases hdone
  exhausted m _ m' hdone := by cases hdone
  bind hx hf m b m' h := by
    obtain ⟨a, m₁, hfirst, hsecond⟩ := bind_eq_done h
    exact hf a (hx m a m₁ hfirst) m₁ b m' hsecond

/-- The end of a computation after one whose result does not matter. -/
theorem ends_after {Q : β → Prop} {x : Exec κ α} {f : α → Exec κ β}
    (hf : ∀ a, (ending κ).Rel Q (f a) (f a)) : (ending κ).Rel Q (x >>= f) (x >>= f) :=
  (ending κ).bind x.ends_any fun a _ => hf a

end Exec

/-! ## Well-formed parts -/

variable {inside : Option SubroutineKind}

/-- The statements of a well-formed body are well-formed. -/
theorem Stmt.forall_wellFormed {body : List Stmt} (h : Stmt.wellFormedAll inside body = true) :
    ∀ s ∈ body, s.wellFormed inside = true := by
  induction body with
  | nil => exact fun _ hs => absurd hs List.not_mem_nil
  | cons s rest ih =>
    simp only [Stmt.wellFormedAll, Bool.and_eq_true] at h
    exact List.forall_mem_cons.2 ⟨h.1, ih h.2⟩

theorem Arms.forall_wellFormed {rest : Arms} (h : rest.wellFormed inside = true) :
    ∀ body ∈ rest.bodies, Stmt.wellFormedAll inside body = true := by
  cases rest with
  | done => exact fun _ hbody => absurd hbody List.not_mem_nil
  | otherwise body => exact List.forall_mem_singleton.2 h
  | elseif c body rest =>
    simp only [Arms.wellFormed, Bool.and_eq_true] at h
    exact List.forall_mem_cons.2 ⟨h.1, forall_wellFormed h.2⟩

/-! ## Statements -/

namespace Eval

theorem ends_next (v : Option Value) : (pure (.next v) : Exec κ Flow).Ends (Flow.Fits inside) :=
  (Exec.ending κ).pure (Flow.fits_next inside v)

/-- A block ends in a flow that fits if its statements do. -/
theorem ends_block {run : Stmt → Exec κ Flow}
    (hrun : ∀ s : Stmt, s.wellFormed inside = true → (run s).Ends (Flow.Fits inside))
    {body : List Stmt} (h : Stmt.wellFormedAll inside body = true) :
    (block run body).Ends (Flow.Fits inside) := by
  change (Exec.ending κ).Rel (Flow.Fits inside) (block run body) (block run body)
  refine (Exec.ending κ).block (Flow.fits_next inside none) fun s hs => ?_
  exact hrun s (Stmt.forall_wellFormed h s hs)

/-- **Well-formed statements return only where they may**, on every machine and with any fuel. -/
theorem ends_stmt [Console κ] (n : Nat) :
    ∀ s : Stmt, s.wellFormed inside = true → (stmt n s : Exec κ Flow).Ends (Flow.Fits inside) := by
  have hnext := Flow.fits_next inside none
  induction n with
  | zero => exact fun _ _ => (Exec.ending κ).exhausted
  | succ n ih =>
    intro s h
    change (Exec.ending κ).Rel (Flow.Fits inside) (stmt (n + 1) s) (stmt (n + 1) s)
    cases s with
    | expr e => exact Exec.ends_after fun v => ends_next v
    | assign target e pos => exact Exec.ends_after fun v => Exec.ends_after fun _ => ends_next none
    | define kind name params body pos => exact Exec.ends_after fun _ => ends_next none
    | ret value pos =>
      cases value with
      | none =>
        refine (Exec.ending κ).pure ?_
        rintro _ ⟨⟩
        exact ⟨Option.isSome_iff_ne_none.1 h, fun _ => rfl⟩
      | some e =>
        -- only a function returns a value
        obtain rfl : inside = some .function := by simpa [Stmt.wellFormed] using h
        refine Exec.ends_after fun v => (Exec.ending κ).pure ?_
        rintro _ ⟨⟩
        exact ⟨by simp, by simp⟩
    | branch c body rest pos =>
      simp only [Stmt.wellFormed, Bool.and_eq_true] at h
      refine Exec.ends_after fun b => ?_
      cases b with
      | true => exact ends_block ih h.1
      | false =>
        refine (Exec.ending κ).arms hnext (fun c _ => Exec.ends_any _) ?_
        exact fun body hbody => ends_block ih (Arms.forall_wellFormed h.2 body hbody)
    | whileLoop c body pos =>
      exact (Exec.ending κ).whileLoop hnext (Exec.ends_any _) (ends_block ih h) n
    | untilLoop body c pos =>
      exact (Exec.ending κ).untilLoop hnext (ends_block ih h) (Exec.ends_any _) n
    | forLoop counter first last step body pos =>
      refine Exec.ends_after fun a => Exec.ends_after fun b => Exec.ends_after fun s => ?_
      split
      · exact (Exec.ending κ).fail rfl
      · split
        · exact (Exec.ending κ).fail rfl
        · refine (Exec.ending κ).countLoop hnext (fun i => ?_) b s n a
          exact Exec.ends_after fun _ => ends_block ih h

/-- A block that goes on gives no value of its own. -/
theorem block_next {run : Stmt → Exec κ Flow} {body : List Stmt} {m m' : Machine κ}
    {v : Option Value} (h : block run body m = .done (.next v) m') : v = none := by
  induction body generalizing m with
  | nil =>
    cases h
    rfl
  | cons s rest ih =>
    obtain ⟨flow, m₁, -, hrest⟩ := Exec.bind_eq_done h
    cases flow with
    | next w => exact ih hrest
    | returned w => cases hrest

/-- A procedure whose body is well formed yields no value. -/
theorem ends_callUser [Console κ] (n : Nat) {s : Subroutine} (hkind : s.kind = .procedure)
    (hbody : Stmt.wellFormedAll (some s.kind) s.body = true) (args : List Value) (pos : Position) :
    (callUser (stmt (κ := κ) n) s args pos).Ends (· = none) := by
  refine Exec.ends_after fun _ m v m' h => ?_
  split at h
  · cases h
  · dsimp only [Machine.inCall] at h
    have hfits := ends_block (ends_stmt n) hbody
      { m with scope := some (bindParams s.params args), depth := m.depth + 1 }
    generalize hrun : block (stmt (κ := κ) n) s.body _ = o at h hfits
    cases o with
    | done flow m₁ =>
      cases h
      cases flow with
      | next w => exact block_next hrun
      | returned w => exact (hfits _ m₁ rfl w rfl).2 (by rw [hkind])
    | failed fault m₁ => cases h
    | panicked least most console => cases h
    | outOfFuel => cases h

end Eval

end Primer
