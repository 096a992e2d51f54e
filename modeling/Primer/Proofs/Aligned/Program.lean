import Primer.Proofs.Aligned.Eval
import Primer.Proofs.Scaffold.Aligned
import Primer.Proofs.Scaffold.Descent

/-!
# Programs that differ in positions only

Aligned rows read as aligned programs, and blank rows among them do not matter
(`Program.aligned_ofRows`). From aligned machines, aligned programs run alike
(`Eval.matched_program`).

A program has one fault more than its rows and its run: that of a block which the input ends in.
Its cause quotes the line of the block, so two such faults are matched rather than aligned.
-/

set_option autoImplicit false

namespace Primer

variable {R : Position → Position → Prop}

/-- The faults are aligned, or they are of the same block that the input ends in, and each quotes
the line of its own position. -/
inductive Fault.Matched (R : Position → Position → Prop) : Fault → Fault → Prop
  | within {f g : Fault} (h : f.Aligned R g) : Matched R f g
  | unclosed (block : Block) {p q : Position} (hp : R p q) :
      Matched R ⟨.unclosedBlock block p.line, p⟩ ⟨.unclosedBlock block q.line, q⟩

namespace Fault.Matched

variable {f g : Fault}

/-- Matched faults stand at aligned positions. -/
theorem position (h : f.Matched R g) : R f.position g.position := by
  cases h with
  | within h => exact h.position
  | unclosed block hp => exact hp

theorem family (h : f.Matched R g) : f.cause.family = g.cause.family := by
  cases h with
  | within h => rw [h.cause]
  | unclosed block hp => rfl

/-- Only the line that an open block quotes tells the messages apart. -/
theorem message (h : f.Matched R g) :
    f.cause.message = g.cause.message ∨
      ∃ block, f.cause = .unclosedBlock block f.position.line ∧
        g.cause = .unclosedBlock block g.position.line := by
  cases h with
  | within h => exact Or.inl (by rw [h.cause])
  | unclosed block hp => exact Or.inr ⟨block, rfl, rfl⟩

theorem notLexical (h : f.Matched R g) : f.cause.family ≠ .lexical := by
  cases h with
  | within h => exact h.notLexical
  | unclosed block hp => exact nofun

end Fault.Matched

/-! ## Reading -/

/-- The rows that hold a lexeme. -/
def Row.filled (rows : List Row) : List Row := rows.filter fun row => !row.isEmpty

/-- The programs have the same shape. -/
structure Program.Aligned (R : Position → Position → Prop) (p q : Program) : Prop where
  statements : List.Forall₂ (Stmt.Aligned R) p.statements q.statements
  fault : Option.Rel (Fault.Matched R) p.fault q.fault

namespace Scaffold

/-- Blank rows change nothing. -/
theorem run_filled (s : Scaffold) (rows : List Row) : s.run (Row.filled rows) = s.run rows := by
  induction rows generalizing s with
  | nil => rfl
  | cons row rows ih =>
    cases row with
    | nil =>
      rw [run_cons_ok (step_nil s)]
      exact ih s
    | cons x tail =>
      show s.run ((x :: tail) :: Row.filled rows) = s.run ((x :: tail) :: rows)
      cases h : s.step (x :: tail) with
      | ok t =>
        rw [run_cons_ok h, run_cons_ok h]
        exact ih t
      | error fault => rw [run_cons_error h, run_cons_error h]

/-- At the end of the text, the same blocks are open. -/
theorem Aligned.finish {s t : Scaffold} (h : s.Aligned R t) : s.finish.Aligned R t.finish := by
  refine ⟨h.finished, ?_⟩
  obtain ⟨done, frames⟩ := s
  obtain ⟨done', frames'⟩ := t
  obtain ⟨-, hframes⟩ := h
  cases hframes with
  | nil => exact .none
  | @cons f g _ _ hfg _ =>
    -- the innermost open blocks are the same, and each fault stands where its block was opened
    have hblock : f.block = g.block := hfg.heading.block_eq
    simp only [Scaffold.finish, List.head?_cons, Option.map_some, Frame.unclosed, hblock]
    exact .some (.unclosed g.block hfg.opened)

/-- Aligned scaffolds complete aligned programs with aligned rows. -/
theorem Aligned.run {s t : Scaffold} (h : s.Aligned R t) {rows rows' : List Row}
    (hrows : List.Forall₂ (List.Forall₂ (Lexeme.Aligned R)) rows rows') :
    (s.run rows).Aligned R (t.run rows') := by
  induction hrows generalizing s t with
  | nil => exact h.finish
  | cons hrow _ ih =>
    rcases (aligned_step h hrow).ok_or_error with ⟨u, u', hu, hu', huu⟩ | ⟨f, g, hf, hg, hfg⟩
    · rw [run_cons_ok hu, run_cons_ok hu']
      exact ih huu
    · rw [run_cons_error hf, run_cons_error hg]
      exact ⟨h.finished, .some (.within hfg)⟩

end Scaffold

/-- **Aligned rows read as aligned programs**, wherever blank rows stand between them. -/
theorem Program.aligned_ofRows {rows rows' : List Row}
    (h : List.Forall₂ (List.Forall₂ (Lexeme.Aligned R)) (Row.filled rows) (Row.filled rows')) :
    (Program.ofRows rows).Aligned R (Program.ofRows rows') := by
  have hempty : Scaffold.empty.Aligned R Scaffold.empty := ⟨.nil, .nil⟩
  have hrun := hempty.run h
  rw [Scaffold.run_filled, Scaffold.run_filled] at hrun
  rw [Scaffold.ofRows_eq_run, Scaffold.ofRows_eq_run]
  exact hrun

/-! ## Running -/

section Running

variable {κ : Type}

/-- The runs of two programs ended in the same way. -/
inductive Outcome.Matched (R : Position → Position → Prop) :
    Outcome κ Unit → Outcome κ Unit → Prop
  | done {m m' : Machine κ} (hm : m.Aligned R m') : Matched R (.done () m) (.done () m')
  | failed {f g : Fault} {m m' : Machine κ} (hfault : f.Matched R g) (hm : m.Aligned R m') :
      Matched R (.failed f m) (.failed g m')
  | panicked (least most : Float) (console : κ) :
      Matched R (.panicked least most console) (.panicked least most console)
  | outOfFuel : Matched R .outOfFuel .outOfFuel

/-- **Aligned programs run alike** from aligned machines. -/
theorem Eval.matched_program [Console κ] (fuel : Nat) {p q : Program} (hpq : p.Aligned R q)
    {m m' : Machine κ} (hm : m.Aligned R m') :
    (Eval.program fuel p m).Matched R (Eval.program fuel q m') := by
  have hstatements := aligned_topLevels fuel hpq.statements m m' hm
  have hfault := hpq.fault
  simp only [Eval.program, Bind.bind]
  generalize topLevels fuel p.statements m = o, topLevels fuel q.statements m' = o'
    at hstatements ⊢
  cases hstatements with
  | outOfFuel => exact .outOfFuel
  | panicked least most console => exact .panicked least most console
  | failed hfg hend => exact .failed (.within hfg) hend
  | done _ hend =>
    -- all statements were run, and the fault of the text comes last
    dsimp only
    generalize p.fault = r, q.fault = r' at hfault ⊢
    cases hfault with
    | none => exact .done hend
    | some hfg => exact .failed hfg hend

end Running

end Primer
