import Primer.Proofs.Footprint.Calls
import Primer.Proofs.Pointing.Session
import Primer.Proofs.Session.Completion

/-!
# The entries of a session

A session runs all statements that its entry reads as, and drops the whole entry if one of them
fails. That there is never more than one of them follows from what the pending lines are: the
beginning of a single statement, in which a block is open (`Session.Unfinished`). Every line keeps
to this, whatever became of the entries before (`Session.unfinished_feed`), so in every session that
can be reached a line completes at most one statement (`Session.entry_invariant`).
-/

set_option autoImplicit false

namespace Primer

/-- A line that does not split into tokens is at fault also after others. -/
theorem Scanner.scan_concat_error {lines : List String} {rows : List Row} {s : String}
    {fault : Fault} (h : scan lines = .ok rows) (hs : scanLine lines.length s = .error fault) :
    scan (lines ++ [s]) = .error fault := by
  suffices hfrom : ∀ (i : Nat) (rows : List Row), scanLines i lines = .ok rows →
      scanLine (i + lines.length) s = .error fault → scanLines i (lines ++ [s]) = .error fault by
    exact hfrom 0 rows h (by rw [Nat.zero_add]; exact hs)
  clear h hs
  induction lines with
  | nil =>
    intro i _ _ hs
    have hs : scanLine i s = .error fault := hs
    simp only [List.nil_append, scanLines, hs]
  | cons first rest ih =>
    intro i _ h hs
    obtain ⟨row, later, -, hrow, hlater⟩ := scanLines_cons h
    rw [List.length_cons, Nat.add_comm rest.length, ← Nat.add_assoc] at hs
    simp only [List.cons_append, scanLines, hrow, ih (i + 1) later hlater hs]

/-- A row finishes at most one statement. -/
theorem Scaffold.length_finished_of_step {s t : Scaffold} {row : Row} (hs : s.finished = [])
    (h : s.step row = .ok t) : t.finished.length ≤ 1 := by
  have hput : ∀ (u : Scaffold) (piece : Piece), u.finished = [] →
      (u.put piece).finished.length ≤ 1 := by
    rintro ⟨done, frames⟩ piece rfl
    cases piece with
    | opened f => exact Nat.zero_le 1
    | finished st =>
      cases frames with
      | nil => exact Nat.le_refl 1
      | cons f outer => exact Nat.zero_le 1
  rcases step_cases h with ⟨-, rfl⟩ | ⟨x, tail, piece, -, -, -, rfl⟩ |
    ⟨x, tail, f, outer, ending, piece, -, -, -, -, rfl⟩
  · rw [hs]
    exact Nat.zero_le 1
  · exact hput s piece hs
  · exact hput ⟨s.finished, outer⟩ piece hs

namespace Session

/-! ## The pending lines -/

/-- The lines are the beginning of one statement: none is finished, and a block is open unless there
are no lines. -/
def Unfinished (lines : List String) : Prop :=
  ∃ rows t, Scanner.scan lines = .ok rows ∧ Scaffold.empty.advance rows = .ok t ∧
    t.finished = [] ∧ (t.frames = [] ↔ lines = [])

theorem unfinished_nil : Unfinished [] :=
  ⟨[], Scaffold.empty, rfl, rfl, rfl, iff_of_true rfl rfl⟩

/-- What the beginning of a statement reads as: nothing yet, or an input that ends in a block. -/
theorem Unfinished.atEnd {lines : List String} (h : Unfinished lines) :
    lines = [] ∨ ∃ fault, Program.statementsOf lines = .error fault ∧ fault.atEnd = true := by
  obtain ⟨rows, ⟨done, frames⟩, hscan, hadvance, -, hframes⟩ := h
  cases frames with
  | nil => exact Or.inl (hframes.1 rfl)
  | cons f outer =>
    have hunclosed := Program.complete_eq_unclosed_iff.2 ⟨done, f, outer, hadvance, rfl⟩
    refine Or.inr ⟨f.unclosed, ?_, hunclosed.2⟩
    rw [Program.statementsOf, Program.ofLines, hscan]
    exact hunclosed.1

/-- A further line completes the statement, or leaves a block open, or is at fault. -/
theorem Unfinished.concat {lines : List String} (h : Unfinished lines) (line : String) :
    (∃ stmts, Program.statementsOf (lines ++ [line]) = .ok stmts ∧ stmts.length ≤ 1) ∨
    (∃ fault, Program.statementsOf (lines ++ [line]) = .error fault ∧ fault.atEnd = true ∧
      Unfinished (lines ++ [line])) ∨
    ∃ fault, Program.statementsOf (lines ++ [line]) = .error fault ∧ fault.atEnd = false := by
  obtain ⟨rows, t, hscan, hadvance, hfinished, -⟩ := h
  cases hrow : Scanner.scanLine lines.length line with
  | error fault =>
    have herror := Scanner.scan_concat_error hscan hrow
    refine Or.inr (Or.inr ⟨fault, ?_, Scanner.scanLines_fault herror⟩)
    rw [Program.statementsOf, Program.ofLines, herror]
    rfl
  | ok row =>
    have hentry := statementsOf_concat hscan hadvance hrow
    -- one row more is taken, and nothing was finished before it
    cases hstep : t.step row with
    | error fault =>
      rw [hstep] at hentry
      exact Or.inr (Or.inr ⟨fault, hentry, Scaffold.step_fault hstep⟩)
    | ok u =>
      rw [hstep] at hentry
      have hlength := Scaffold.length_finished_of_step hfinished hstep
      by_cases hopen : u.frames = []
      · obtain ⟨done, frames⟩ := u
        obtain rfl : frames = [] := hopen
        exact Or.inl ⟨done, hentry, hlength⟩
      · have hunfinished : Unfinished (lines ++ [line]) := by
          refine ⟨rows ++ [row], u, Scanner.scanLines_concat hscan (by simpa using hrow), ?_,
            Scaffold.step_finished hfinished hstep hopen, iff_of_false hopen (by simp)⟩
          rw [Scaffold.advance_append, hadvance]
          exact Scaffold.advance_cons_ok hstep []
        rcases hunfinished.atEnd with hnil | ⟨fault, hfault, hend⟩
        · simp at hnil
        · exact Or.inr (Or.inl ⟨fault, hfault, hend, hunfinished⟩)

/-! ## What a line does -/

variable {κ : Type}

/-- The statements that a session runs when it is given the line: those of the entry that the line
completes. -/
def due (s : Session κ) (line : String) : List Stmt :=
  if s.pending.isEmpty && isQuit line then []
  else
    match Program.statementsOf (s.pending ++ [line]) with
    | .ok statements => statements
    | .error _ => []

variable [Console κ]

/-- The session is left with the machine that the statements leave, each of them run once. -/
theorem machine_feed {fuel : Nat} {s : Session κ} {line : String} {m : Machine κ}
    (h : (Eval.topLevels fuel (s.due line) s.machine).machine? = some m) :
    (s.feed fuel line).2.machine = m := by
  -- the cases of feeding a line; where nothing is run, nothing is due
  revert h
  fun_cases Session.feed fuel s line with
  | case1 hquit =>
    rw [due, if_pos hquit]
    exact fun h => Option.some.inj h
  | case2 hquit entry fault hread _ | case3 hquit entry fault hread _ =>
    rw [due, if_neg hquit, hread]
    exact fun h => Option.some.inj h
  | case4 hquit entry statements hread _ m' hrun | case5 hquit entry statements hread _ m' hrun =>
    rw [due, if_neg hquit, hread]
    dsimp only
    rw [hrun]
    exact fun h => Option.some.inj h
  | case6 hquit entry statements hread _ _ _ hrun | case7 hquit entry statements hread hrun =>
    rw [due, if_neg hquit, hread]
    dsimp only
    rw [hrun]
    exact fun h => by cases h

/-- A line that is at fault itself, or leaves a block open, runs nothing. -/
theorem machine_feed_of_error {fuel : Nat} {s : Session κ} {line : String} {fault : Fault}
    (h : Program.statementsOf (s.pending ++ [line]) = .error fault) :
    (s.feed fuel line).2.machine = s.machine := by
  refine machine_feed ?_
  rw [due, h]
  split <;> rfl

/-- A session that asks for more has taken the line to the pending ones, and nothing else. -/
theorem feed_more {fuel : Nat} {s : Session κ} {line : String}
    (h : (s.feed fuel line).1 = .more) :
    (s.feed fuel line).2 = ⟨s.machine, s.pending ++ [line]⟩ := by
  revert h
  fun_cases Session.feed fuel s line with
  | case2 => exact fun _ => rfl
  | _ => exact fun h => by cases h

/-- Every line keeps the pending lines the beginning of one statement. -/
theorem unfinished_feed {s : Session κ} (h : Unfinished s.pending) (fuel : Nat) (line : String) :
    Unfinished (s.feed fuel line).2.pending := by
  fun_cases Session.feed fuel s line with
  | case1 => exact h
  | case2 hquit entry fault hread hend =>
    rcases h.concat line with ⟨stmts, hstmts, -⟩ | ⟨_, -, -, hunfinished⟩ | ⟨g, hg, hnot⟩
    · cases hstmts.symm.trans hread
    · exact hunfinished
    · cases hg.symm.trans hread
      exact absurd hend (by simp [hnot])
  | _ => exact unfinished_nil

/-! ## Reachable sessions -/

/-- What is pending in a session is an unfinished entry. -/
theorem Reached.unfinished {past : List (List String)} {s : Session κ} (h : Reached past s) :
    Unfinished s.pending := by
  induction h with
  | start console draws => exact unfinished_nil
  | discard _ _ => exact unfinished_nil
  | waits _ _ ih => exact unfinished_feed ih _ _
  | ended _ _ ih => exact unfinished_feed ih _ _

/-- A session rests outside of all calls. -/
theorem Reached.outside {past : List (List String)} {s : Session κ} (h : Reached past s) :
    s.machine.depth = 0 ∧ s.machine.scope = none := by
  have hstep : ∀ {s : Session κ} (fuel : Nat) (line : String),
      s.machine.depth = 0 ∧ s.machine.scope = none →
      (s.feed fuel line).2.machine.depth = 0 ∧ (s.feed fuel line).2.machine.scope = none := by
    intro s fuel line ih
    have hlevel := (Footprint.calls κ fun _ => true).rel_feed fuel s line
    exact ⟨hlevel.depth.trans ih.1, hlevel.scope.2 ih.2⟩
  induction h with
  | start console draws => exact ⟨rfl, rfl⟩
  | discard _ ih => exact ih
  | waits _ _ ih => exact hstep _ _ ih
  | ended _ _ ih => exact hstep _ _ ih

/-- **A session collects one statement at a time.** In every session that can be reached, by any
lines and with entries dropped at any time, the pending lines, if there are any, fail to read only
because the input ends in a block, and the machine is outside of all calls.

Whatever the next line is, it makes the session run at most one statement. If the session asks for
more, or if the entry is at fault as a text, the machine is left exactly as it was. The pending
lines grow by the line if the session asks for more, and else there are none. -/
theorem entry_invariant {past : List (List String)} {s : Session κ} (h : Reached past s) :
    (s.pending = [] ∨ ∃ fault, Program.statementsOf s.pending = .error fault ∧
      fault.atEnd = true) ∧
    s.machine.depth = 0 ∧ s.machine.scope = none ∧
    ∀ (fuel : Nat) (line : String),
      ((s.due line).length ≤ 1 ∧
        ∀ m, (Eval.topLevels fuel (s.due line) s.machine).machine? = some m →
          (s.feed fuel line).2.machine = m) ∧
      ((s.feed fuel line).1 = .more →
        (s.feed fuel line).2.machine = s.machine ∧
          (s.feed fuel line).2.pending = s.pending ++ [line]) ∧
      (∀ report fault, (s.feed fuel line).1 = .failed report →
        Program.statementsOf (s.pending ++ [line]) = .error fault →
        (s.feed fuel line).2.machine = s.machine) ∧
      ((s.feed fuel line).1 ≠ .more → (s.feed fuel line).2.pending = []) := by
  refine ⟨h.unfinished.atEnd, h.outside.1, h.outside.2, fun fuel line => ⟨⟨?_, ?_⟩, ?_, ?_, ?_⟩⟩
  · -- what is pending is unfinished, so one line more completes one statement at most
    simp only [due]
    split
    · exact Nat.zero_le 1
    · rcases h.unfinished.concat line with ⟨stmts, hread, hlength⟩ | ⟨_, hread, -⟩ | ⟨_, hread, -⟩
      · rw [hread]
        exact hlength
      · rw [hread]
        exact Nat.zero_le 1
      · rw [hread]
        exact Nat.zero_le 1
  · exact fun m hm => machine_feed hm
  · intro hmore
    rw [feed_more hmore]
    exact ⟨rfl, rfl⟩
  · exact fun _ _ _ hread => machine_feed_of_error hread
  · intro hmore
    by_contra hpending
    exact hmore (feed_pending hpending)

/-- A procedure of a session that has run an entry before: a further line of its body is waited
after, a word that closes another block ends the entry and changes nothing else, and the closing
word makes the session run one statement. -/
theorem entry_invariant_procedure :
    let s := ((start (Buffer.withInput [] none) .lowest).feedAll 9
      ["x = 1", "procedure p()", "print(x)"]).2
    (∃ past, Reached past s) ∧ s.pending = ["procedure p()", "print(x)"] ∧
      s.machine.depth = 0 ∧ s.machine.scope = none ∧
      ((s.feed 9 "p()").1 = .more ∧ (s.feed 9 "p()").2.machine = s.machine ∧
        (s.feed 9 "p()").2.pending = s.pending ++ ["p()"]) ∧
      ((∃ report, (s.feed 9 "endif").1 = .failed report) ∧
        (s.feed 9 "endif").2.machine = s.machine ∧ (s.feed 9 "endif").2.pending = []) ∧
      (s.due "endprocedure").length ≤ 1 ∧
      ∃ m, (Eval.topLevels 9 (s.due "endprocedure") s.machine).machine? = some m ∧
        (s.feed 9 "endprocedure").2.machine = m := by
  intro s
  obtain ⟨past, hreached⟩ : ∃ past, Reached past s :=
    (Reached.start _ _).feedAll 9 (by decide +kernel)
  have hmore : (s.feed 9 "p()").1 = .more := by decide +kernel
  have hstray : (s.feed 9 "endif").1 = .failed
      " ! ERROR\nSyntax Error: 'endif' without a matching 'if' (line 3, column 1)\nendif\n^" := by
    decide +kernel
  have hfault : (Program.statementsOf (s.pending ++ ["endif"])).toOption.isNone = true := by
    decide +kernel
  have hends : (Eval.topLevels 9 (s.due "endprocedure") s.machine).machine?.isSome = true := by
    decide +kernel
  obtain ⟨m, hm⟩ := Option.isSome_iff_exists.1 hends
  obtain ⟨fault, hread⟩ : ∃ fault, Program.statementsOf (s.pending ++ ["endif"]) = .error fault := by
    generalize Program.statementsOf (s.pending ++ ["endif"]) = r at hfault
    cases r with
    | ok stmts => cases hfault
    | error fault => exact ⟨fault, rfl⟩
  obtain ⟨-, hdepth, hscope, hfeed⟩ := entry_invariant hreached
  obtain ⟨-, hwaits, -, -⟩ := hfeed 9 "p()"
  obtain ⟨-, -, hfails, hdrops⟩ := hfeed 9 "endif"
  obtain ⟨⟨hlength, hruns⟩, -, -, -⟩ := hfeed 9 "endprocedure"
  exact ⟨⟨past, hreached⟩, by decide +kernel, hdepth, hscope, ⟨hmore, hwaits hmore⟩,
    ⟨⟨_, hstray⟩, hfails _ _ hstray hread, hdrops fun h => by cases hstray.symm.trans h⟩, hlength, m, hm,
    hruns m hm⟩

end Session

end Primer
