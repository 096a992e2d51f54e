import Primer.Proofs.Scaffold.Aligned
import Primer.Proofs.Scaffold.Descent

/-!
# What further rows can change

The scaffold after the rows of a source says how reading them ended: no block is open and the
statements are complete (`Program.complete_eq_ok_iff`), a block is open and the fault is that of
the innermost one (`Program.complete_eq_unclosed_iff`), or a row was at fault
(`Program.complete_eq_fault_iff`). Rows that follow are taken by that scaffold, so they change only
the second of these (`Program.complete_append`).
-/

set_option autoImplicit false

namespace Primer

namespace Scaffold

/-- Rows are taken, or one of them is at fault, and not for the end of the input. -/
theorem advance_cases (s : Scaffold) (rows : List Row) :
    (∃ t, s.advance rows = .ok t) ∨
      ∃ done fault, s.advance rows = .error ⟨done, some fault⟩ ∧ fault.atEnd = false := by
  induction rows generalizing s with
  | nil => exact Or.inl ⟨s, rfl⟩
  | cons row rows ih =>
    cases h : s.step row with
    | ok t =>
      rw [advance_cons_ok h]
      exact ih t
    | error fault => exact Or.inr ⟨s.finished, fault, advance_cons_error h rows, step_fault h⟩

end Scaffold

namespace Frame

/-- A block that is still open is a fault of a text that ends too soon. -/
theorem atEnd_unclosed (f : Frame) : f.unclosed.atEnd = true := rfl

end Frame

namespace Program

open Scaffold

/-- What the scaffold says about complete statements. -/
theorem complete_of_advance (rows : List Row) :
    (ofRows rows).complete =
      match empty.advance rows with
      | .ok t => t.finish.complete
      | .error p => p.complete := by
  rw [ofRows_eq_run, run]
  cases empty.advance rows <;> rfl

/-- The rows are complete: no block is open after them. -/
theorem complete_eq_ok_iff {rows : List Row} {stmts : List Stmt} :
    (ofRows rows).complete = .ok stmts ↔ empty.advance rows = .ok ⟨stmts, []⟩ := by
  rw [complete_of_advance]
  constructor
  · intro h
    rcases advance_cases empty rows with ⟨⟨done, frames⟩, ht⟩ | ⟨done, fault, hp, -⟩
    · rw [ht] at h ⊢
      cases frames with
      | nil =>
        obtain rfl : done = stmts := Except.ok.inj h
        rfl
      | cons f outer => exact absurd h (by simp [finish, complete])
    · rw [hp] at h
      exact absurd h (by simp [complete])
  · intro h
    rw [h]
    rfl

/-- The rows end in a block: the fault is that of the innermost one. -/
theorem complete_eq_unclosed_iff {rows : List Row} {fault : Fault} :
    (ofRows rows).complete = .error fault ∧ fault.atEnd = true ↔
      ∃ done f outer, empty.advance rows = .ok ⟨done, f :: outer⟩ ∧ fault = f.unclosed := by
  rw [complete_of_advance]
  constructor
  · rintro ⟨h, hend⟩
    rcases advance_cases empty rows with ⟨⟨done, frames⟩, ht⟩ | ⟨done, fault', hp, hnot⟩
    · rw [ht] at h
      cases frames with
      | nil => exact absurd h (by simp [finish, complete])
      | cons f outer =>
        obtain rfl : f.unclosed = fault := Except.error.inj h
        exact ⟨done, f, outer, ht, rfl⟩
    · rw [hp] at h
      obtain rfl : fault' = fault := Except.error.inj h
      exact absurd hend (by simp [hnot])
  · rintro ⟨done, f, outer, ht, rfl⟩
    rw [ht]
    exact ⟨rfl, f.atEnd_unclosed⟩

/-- A row is at fault. -/
theorem complete_eq_fault_iff {rows : List Row} {fault : Fault} :
    (ofRows rows).complete = .error fault ∧ fault.atEnd = false ↔
      ∃ done, empty.advance rows = .error ⟨done, some fault⟩ := by
  -- going row by row ends with a fault, or with blocks that may be open
  rw [complete_of_advance]
  constructor
  · rintro ⟨h, hend⟩
    rcases advance_cases empty rows with ⟨⟨done, frames⟩, ht⟩ | ⟨done, fault', hp, -⟩
    · rw [ht] at h
      cases frames with
      | nil => exact absurd h (by simp [finish, complete])
      | cons f outer =>
        obtain rfl : f.unclosed = fault := Except.error.inj h
        exact absurd hend (by simp [f.atEnd_unclosed])
    · rw [hp] at h
      obtain rfl : fault' = fault := Except.error.inj h
      exact ⟨done, hp⟩
  · rintro ⟨done, hp⟩
    rcases advance_cases empty rows with ⟨t, ht⟩ | ⟨done', fault', hp', hnot⟩
    · rw [ht] at hp
      exact absurd hp (by simp)
    · rw [hp'] at hp
      obtain ⟨rfl, rfl⟩ : done' = done ∧ fault' = fault := by simpa using hp
      rw [hp']
      exact ⟨rfl, hnot⟩

/-- **The verdict on a text is final, unless it ends in a block.** Complete rows stay complete, and
their statements come before those of the rows that follow, which read as they do on their own. A
fault of a row stays, with its position, whatever follows. -/
theorem complete_append :
    (∀ (rows more : List Row) (stmts : List Stmt), (ofRows rows).complete = .ok stmts →
      (ofRows (rows ++ more)).complete = (ofRows more).complete.map (stmts ++ ·)) ∧
    (∀ (rows more : List Row) (fault : Fault), (ofRows rows).complete = .error fault →
      fault.atEnd = false → (ofRows (rows ++ more)).complete = .error fault) := by
  constructor
  · intro rows more stmts h
    rw [complete_eq_ok_iff] at h
    -- no block is open after the rows, so those that follow are read as from the start
    have hrun : empty.run (rows ++ more) = run ⟨stmts, []⟩ more := by
      simp only [run, advance_append, h, Except.bind]
    have hafter := run_after stmts empty more
    simp only [after, empty, List.append_nil] at hafter
    rw [ofRows_eq_run, ofRows_eq_run, hrun, hafter]
    simp only [complete, empty]
    cases (run ⟨[], []⟩ more).fault <;> rfl
  · intro rows more fault h hend
    obtain ⟨done, hp⟩ := complete_eq_fault_iff.1 ⟨h, hend⟩
    -- the scaffold stopped at the row at fault, and takes no row after it
    have hmore : empty.advance (rows ++ more) = .error ⟨done, some fault⟩ := by
      simp only [advance_append, hp, Except.bind]
    exact (complete_eq_fault_iff.2 ⟨done, hmore⟩).1

/-- A loop stays complete before a row at fault, and that row is at fault before a loop. -/
theorem complete_append_loop :
    let loop : List Row :=
      [[⟨.keyword .kwDo, ⟨0, 0⟩⟩], [⟨.keyword .kwUntil, ⟨1, 0⟩⟩, ⟨.boolean true, ⟨1, 6⟩⟩]]
    let stray : List Row := [[⟨.keyword .kwEndif, ⟨2, 0⟩⟩]]
    (ofRows (loop ++ stray)).complete =
        (ofRows stray).complete.map
          ([Stmt.untilLoop [] (.literal (.boolean true) ⟨1, 6⟩) ⟨0, 0⟩] ++ ·) ∧
      (ofRows (stray ++ loop)).complete = .error ⟨.strayKeyword .kwEndif, ⟨2, 0⟩⟩ :=
  ⟨complete_append.1 _ _ _ rfl, complete_append.2 _ _ _ rfl rfl⟩

end Program

end Primer
