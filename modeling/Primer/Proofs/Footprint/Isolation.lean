import Primer.Proofs.Footprint

/-!
# Calls cannot reach the global table without the qualifier

A write goes to the global table only if no call is active or the target says so. If no statement
says so, neither in what is run nor in the subroutines that a machine holds, then nothing that runs
inside a call changes the global table (`Footprint.isolated`), and no expression does, since what
an expression writes it writes in calls. Values carry subroutines around, so the condition is one on
values too, and runs keep it.
-/

set_option autoImplicit false

namespace Primer

/-- Whether a statement, apart from those inside it, does without a global target. -/
def Stmt.isLocal : Stmt → Bool
  | .assign target _ _ => !target.isGlobal
  | _ => true

/-- No assignment in the statement has a global target. -/
def Stmt.GlobalFree (s : Stmt) : Prop := s.all Stmt.isLocal = true

instance (s : Stmt) : Decidable s.GlobalFree := inferInstanceAs (Decidable (_ = true))

/-- No assignment in the statements has a global target. -/
def Stmt.GlobalFreeOf (body : List Stmt) : Prop := Stmt.allOf Stmt.isLocal body = true

/-- No assignment in the body of the value has a global target, if the value is a subroutine of the
program. -/
def Value.GlobalFree (v : Value) : Prop := v.Meets Stmt.isLocal

/-- No assignment in a subroutine that the machine holds has a global target. -/
def Machine.GlobalFree {κ : Type} (m : Machine κ) : Prop :=
  ∀ s : Subroutine, m.Holds s → Stmt.GlobalFreeOf s.body

/-- A local statement has no global target. -/
theorem Stmt.isGlobal_of_isLocal {s : Stmt} {target : Target} (h : s.isLocal = true)
    (htarget : s.target? = some target) : target.isGlobal = false := by
  cases s with
  | assign target' e pos =>
    obtain rfl : target' = target := Option.some.inj htarget
    simpa [isLocal] using h
  | define kind name params body pos =>
    obtain rfl : Target.plain name = target := Option.some.inj htarget
    rfl
  | forLoop counter first last step body pos =>
    obtain rfl : Target.plain counter = target := Option.some.inj htarget
    rfl
  | _ => cases htarget

variable {κ : Type}

/-- If a call was active, one still is, and the global table is the same. -/
def Machine.Isolated (m m' : Machine κ) : Prop :=
  m.scope ≠ none → m'.scope ≠ none ∧ m'.globals = m.globals

/-- What is not qualified as global does not touch the global table in a call. -/
theorem Machine.isolated_assign {target : Target} (htarget : target.isGlobal = false) {v : Value}
    {pos : Position} {m m' : Machine κ} (h : Machine.assign target v pos m = .done () m') :
    m.Isolated m' := by
  intro hcall
  rcases Machine.assign_cases h with ⟨t, t', -, -, -, rfl⟩ | ⟨t', houtside, -, rfl⟩
  · exact ⟨by simp, rfl⟩
  · -- the global table is written only outside of calls, or with the qualifier
    rcases houtside with hnone | hglobal
    · exact absurd hnone hcall
    · rw [htarget] at hglobal
      cases hglobal

/-- Without a global target, expressions do not change the global table, and statements do not
while a call is active. -/
def Footprint.isolated (κ : Type) : Footprint κ Stmt.isLocal where
  exprs :=
    { Rel := fun m m' => m'.scope = m.scope ∧ m'.globals = m.globals
      refl := fun _ => ⟨rfl, rfl⟩
      trans := fun h h' => ⟨h'.1.trans h.1, h'.2.trans h.2⟩ }
  stmts :=
    { Rel := Machine.Isolated
      refl := fun _ hcall => ⟨hcall, rfl⟩
      trans := fun h h' hcall =>
        ⟨(h' (h hcall).1).1, (h' (h hcall).1).2.trans (h hcall).2⟩ }
  stmts_of_exprs h hcall := ⟨by rw [h.1]; exact hcall, h.2⟩
  console _ _ := ⟨rfl, rfl⟩
  draws _ _ := ⟨rfl, rfl⟩
  write hs htarget h := Machine.isolated_assign (Stmt.isGlobal_of_isLocal hs htarget) h
  -- the body of a call always runs in an active call
  call _ h := ⟨rfl, (h (by simp)).2⟩

namespace Eval

/-- What a computation of statements within the footprint comes to. -/
theorem isolated_of_within {x : Exec κ Flow}
    (h : x.Within Stmt.isLocal (Footprint.isolated κ).stmts fun flow =>
      ∀ w ∈ flow.value, w.Meets Stmt.isLocal) {m : Machine κ} (hm : m.GlobalFree) :
    (∀ m', (x m).machine? = some m' →
      (m.scope ≠ none → m'.globals = m.globals) ∧ m'.GlobalFree) ∧
    ∀ flow v m', x m = .done flow m' → flow.value = some v → v.GlobalFree := by
  have hwithin := h m hm
  constructor
  · intro m' hend
    obtain ⟨hm', hrel⟩ := hwithin.machine hend
    exact ⟨fun hcall => (hrel hcall).2, hm'⟩
  · intro flow v m' hdone hvalue
    rw [hdone] at hwithin
    exact hwithin.value v hvalue

variable [Console κ]

/-- **Without a global target, calls cannot change the global table.** From a machine whose
subroutines have none, evaluating leaves the global table as it is, outside of calls and inside;
running a statement or a block without one does so while a call is active. However they end, the
machine that they leave has no subroutine with a global target either, and nor has the value that
they give. -/
theorem globals_isolated (m : Machine κ) (hm : m.GlobalFree) :
    (∀ (n : Nat) (s : Stmt),
      (∀ m', (valueOf n s m).machine? = some m' → m'.globals = m.globals ∧ m'.GlobalFree) ∧
      ∀ v m', valueOf n s m = .done (some v) m' → v.GlobalFree) ∧
    (∀ (n : Nat) (s : Stmt), s.GlobalFree →
      (∀ m', (stmt n s m).machine? = some m' →
        (m.scope ≠ none → m'.globals = m.globals) ∧ m'.GlobalFree) ∧
      ∀ flow v m', stmt n s m = .done flow m' → flow.value = some v → v.GlobalFree) ∧
    ∀ (n : Nat) (body : List Stmt), Stmt.GlobalFreeOf body →
      (∀ m', (block (stmt n) body m).machine? = some m' →
        (m.scope ≠ none → m'.globals = m.globals) ∧ m'.GlobalFree) ∧
      ∀ flow v m', block (stmt n) body m = .done flow m' → flow.value = some v → v.GlobalFree := by
  -- a statement that writes no global name stays within this change
  let F := Footprint.isolated κ
  refine ⟨?_, ?_, ?_⟩
  · intro n s
    have hwithin := F.within_valueOf n s m hm
    constructor
    · intro m' hend
      obtain ⟨hm', hrel⟩ := hwithin.machine hend
      exact ⟨hrel.2, hm'⟩
    · intro v m' hdone
      rw [hdone] at hwithin
      exact hwithin.value v rfl
  · intro n s hs
    exact isolated_of_within ((F.evaluates_and_runs n).2 s hs) hm
  · intro n body hbody
    exact isolated_of_within (within_block (F.evaluates_and_runs n).2 hbody) hm

/-- A function that writes a name of its own leaves the global name of the same spelling alone,
called from outside of all calls and run inside one. -/
theorem globals_isolated_shadow :
    ∃ m m' m'' : Machine Buffer, m.GlobalFree ∧ m.scope ≠ none ∧
      (valueOf 9 (.expr (.call (.name "f" ⟨0, 0⟩) [] ⟨0, 1⟩)) m).machine? = some m' ∧
      m'.globals = m.globals ∧
      (stmt 9 (.assign (Target.plain "x") (.call (.name "f" ⟨0, 4⟩) [] ⟨0, 5⟩) ⟨0, 0⟩) m).machine? =
        some m'' ∧
      m''.globals = m.globals := by
  let f : Subroutine := ⟨.function, "f", [],
    [.assign (Target.plain "x") (.literal (.integer 2) ⟨1, 4⟩) ⟨1, 0⟩,
      .ret (some (.name "x" ⟨2, 7⟩)) ⟨2, 0⟩]⟩
  let m : Machine Buffer := ⟨⟨[⟨"x", some (.integer 1), false⟩,
    ⟨"f", some (.callable (.user f)), false⟩]⟩, some Table.empty, 1, false,
    Buffer.withInput [] none, .lowest⟩
  have hm : m.GlobalFree := by
    apply (Machine.meets_iff m).2
    constructor
    · intro slot hslot v hv
      rcases List.mem_cons.1 hslot with rfl | hslot
      · obtain rfl := Option.some.inj hv
        trivial
      · obtain rfl := List.mem_singleton.1 hslot
        obtain rfl := Option.some.inj hv
        rfl
    · intro t ht
      obtain rfl := Option.some.inj ht
      exact Table.meets_empty
  have hcall : m.scope ≠ none := nofun
  obtain ⟨hvalue, hstmt, -⟩ := globals_isolated m hm
  obtain ⟨m', hm'⟩ : ∃ m', (valueOf 9 (.expr (.call (.name "f" ⟨0, 0⟩) [] ⟨0, 1⟩)) m).machine? =
    some m' := ⟨_, rfl⟩
  obtain ⟨m'', hm''⟩ : ∃ m'', (stmt 9 (.assign (Target.plain "x")
    (.call (.name "f" ⟨0, 4⟩) [] ⟨0, 5⟩) ⟨0, 0⟩) m).machine? = some m'' := ⟨_, rfl⟩
  exact ⟨m, m', m'', hm, hcall, hm', ((hvalue 9 _).1 m' hm').1, hm'',
    ((hstmt 9 _ (by decide)).1 m'' hm'').1 hcall⟩

end Eval

end Primer
