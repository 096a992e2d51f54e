import Primer.Proofs.Extension
import Primer.Proofs.Outcome
import Primer.Proofs.Session.Numbering
import Primer.Session

/-!
# Sessions and scripts agree

A script is read as a whole and run statement by statement. A session takes the same lines one at a
time, reads the entry that it has collected from its first line again, and runs it once it is
complete. `Session.agrees` says that the two cannot be told apart.

The proof walks over the lines with a simulation (`Session.Follows`): the scaffold of the script
has no finished statement that was not run, the scaffold of the session's entry is aligned with it
along the shift from the entry to the script, and the machines differ in positions only.
-/

set_option autoImplicit false

namespace Primer

/-- The session goes on after the line. -/
def Verdict.GoesOn (v : Verdict) : Prop := v = .ran ∨ v = .more

instance : DecidablePred Verdict.GoesOn := fun v =>
  inferInstanceAs (Decidable (v = .ran ∨ v = .more))

/-- The session takes no line after this one. -/
def Verdict.Stops : Verdict → Prop
  | .failed _ | .panicked => True
  | .quit | .more | .ran | .stuck => False

/-- A line that does not end the feeding goes on. -/
theorem Verdict.GoesOn.not_stops {v : Verdict} (h : v.GoesOn) : ¬v.Stops := by
  rcases h with rfl | rfl <;> exact id

namespace Session

variable {κ : Type} [Console κ]

/-- Takes lines one by one, up to the first that fails or panics. -/
def feedAll (fuel : Nat) : Session κ → List String → List Verdict × Session κ
  | s, [] => ([], s)
  | s, line :: rest =>
    match s.feed fuel line with
    | (.failed report, s') => ([.failed report], s')
    | (.panicked, s') => ([.panicked], s')
    | (v, s') => (v :: (feedAll fuel s' rest).1, (feedAll fuel s' rest).2)

/-- The session, which took `n` lines before, stops at one of the lines for a fault like the given
one. Its fault has the line counted from the start of the entry, or stands in a subroutine that the
session held before the line, and has the line counted from the start of an earlier entry. -/
def StopsFor (fuel n : Nat) (s : Session κ) (lines : List String) (fault : Fault) : Prop :=
  ∃ (fed : List String) (line : String) (rest : List String) (fault' : Fault) (origin : Nat),
    lines = fed ++ line :: rest ∧
    (∀ v ∈ (s.feedAll fuel fed).1, v.GoesOn) ∧
    (s.feedAll fuel lines).1 = (s.feedAll fuel fed).1 ++
      [.failed (fault'.diagnostic.report ((s.feedAll fuel fed).2.pending ++ [line]))] ∧
    fault'.cause = fault.cause ∧
    fault.position.Shift origin fault'.position ∧
    (origin + (s.feedAll fuel fed).2.pending.length = n + fed.length ∨
      origin + (s.feedAll fuel fed).2.pending.length < n + fed.length ∧
        ∃ sub, (s.feedAll fuel fed).2.machine.Holds sub ∧
          fault'.position ∈ Stmt.positionsOf sub.body)

/-- The session, which took `n` lines before, does on the lines what the outcome of a script
says. -/
def Agrees (fuel n : Nat) (s : Session κ) (lines : List String) : Outcome κ Unit → Prop
  | .outOfFuel => True
  | .done _ m =>
    (∀ v ∈ (s.feedAll fuel lines).1, v.GoesOn) ∧ (s.feedAll fuel lines).2.pending = [] ∧
      m.Alike (s.feedAll fuel lines).2.machine
  | .failed fault m =>
    m.Alike (s.feedAll fuel lines).2.machine ∧
      if fault.atEnd then
        (∀ v ∈ (s.feedAll fuel lines).1, v.GoesOn) ∧ (s.feedAll fuel lines).2.pending ≠ []
      else s.StopsFor fuel n lines fault
  | .panicked _ _ console =>
    (s.feedAll fuel lines).2.machine.console = console ∧
      ∃ before, (∀ v ∈ before, v.GoesOn) ∧ (s.feedAll fuel lines).1 = before ++ [.panicked]

/-! ## Feeding one line -/

theorem feedAll_cons {fuel : Nat} {s s' : Session κ} {line : String} {v : Verdict}
    (h : s.feed fuel line = (v, s')) (hv : ¬v.Stops) (rest : List String) :
    s.feedAll fuel (line :: rest) = (v :: (s'.feedAll fuel rest).1, (s'.feedAll fuel rest).2) := by
  cases v with
  | failed report => exact absurd trivial hv
  | panicked => exact absurd trivial hv
  | _ => simp only [feedAll, h]

/-- After a line that ends the feeding, nothing more is fed. -/
theorem feedAll_stops {fuel : Nat} {s s' : Session κ} {line : String} {v : Verdict}
    (h : s.feed fuel line = (v, s')) (hv : v.Stops) (rest : List String) :
    s.feedAll fuel (line :: rest) = ([v], s') := by
  cases v with
  | failed report => simp only [feedAll, h]
  | panicked => simp only [feedAll, h]
  | _ => exact hv.elim

/-- Agreement on the lines after one that the session took. -/
theorem Agrees.cons {fuel n : Nat} {s s' : Session κ} {line : String} {v : Verdict}
    (h : s.feed fuel line = (v, s')) (hv : v.GoesOn) {rest : List String} {o : Outcome κ Unit}
    (hrest : s'.Agrees fuel (n + 1) rest o) : s.Agrees fuel n (line :: rest) o := by
  have hall : ∀ lines, (∀ w ∈ (s'.feedAll fuel lines).1, w.GoesOn) →
      ∀ w ∈ (s.feedAll fuel (line :: lines)).1, w.GoesOn := by
    intro lines hlines w hw
    rw [feedAll_cons h hv.not_stops] at hw
    rcases List.mem_cons.1 hw with rfl | hw
    · exact hv
    · exact hlines w hw
  cases o with
  | outOfFuel => trivial
  | done a m =>
    obtain ⟨hsmooth, hpending, hm⟩ := hrest
    refine ⟨hall rest hsmooth, ?_, ?_⟩ <;> rw [feedAll_cons h hv.not_stops] <;> assumption
  | failed fault m =>
    obtain ⟨hm, hfault⟩ := hrest
    refine ⟨by rw [feedAll_cons h hv.not_stops]; exact hm, ?_⟩
    split at hfault
    · next hend =>
      rw [if_pos hend]
      refine ⟨hall rest hfault.1, ?_⟩
      rw [feedAll_cons h hv.not_stops]
      exact hfault.2
    · next hend =>
      rw [if_neg hend]
      -- the fault comes later, and there is one line more before it
      obtain ⟨fed, stop, more, fault', origin, rfl, hsmooth, hverdicts, hcause, hposition,
        horigin⟩ := hfault
      refine ⟨line :: fed, stop, more, fault', origin, rfl, hall fed hsmooth, ?_, hcause,
        hposition, ?_⟩
      · rw [feedAll_cons h hv.not_stops, feedAll_cons h hv.not_stops, hverdicts]
        rfl
      · rw [feedAll_cons h hv.not_stops, List.length_cons]
        rw [Nat.add_right_comm n 1, Nat.add_assoc n] at horigin
        exact horigin
  | panicked least most console =>
    obtain ⟨hconsole, before, hsmooth, hverdicts⟩ := hrest
    refine ⟨by rw [feedAll_cons h hv.not_stops]; exact hconsole, v :: before, ?_, ?_⟩
    · exact List.forall_mem_cons.2 ⟨hv, hsmooth⟩
    · rw [feedAll_cons h hv.not_stops, hverdicts]
      rfl

/-- What an entry with a further line reads as. -/
theorem statementsOf_concat {pending : List String} {line : String} {rows : List Row} {row : Row}
    {t : Scaffold} (hrows : Scanner.scan pending = .ok rows)
    (ht : Scaffold.empty.advance rows = .ok t)
    (hrow : Scanner.scanLine pending.length line = .ok row) :
    Program.statementsOf (pending ++ [line]) =
      match t.step row with
      | .ok u => u.finish.complete
      | .error fault => .error fault := by
  have hscan : Scanner.scan (pending ++ [line]) = .ok (rows ++ [row]) :=
    Scanner.scanLines_concat hrows (by rw [Nat.zero_add]; exact hrow)
  have hadvance : Scaffold.empty.advance (rows ++ [row]) = t.advance [row] := by
    simp only [Scaffold.advance_append, ht, Except.bind]
  show ((Scanner.scan (pending ++ [line])).map Program.ofRows).bind Program.complete = _
  rw [hscan]
  show (Program.ofRows (rows ++ [row])).complete = _
  rw [Program.complete_of_advance, hadvance]
  cases hstep : t.step row with
  | ok u => rw [Scaffold.advance_cons_ok hstep, Scaffold.advance_nil]
  | error fault =>
    rw [Scaffold.advance_cons_error hstep]
    rfl

/-- A session that was asked for more has lines pending. -/
theorem feed_pending {fuel : Nat} {s : Session κ} {line : String}
    (h : (s.feed fuel line).2.pending ≠ []) : (s.feed fuel line).1 = .more := by
  revert h
  fun_cases feed fuel s line <;> simp_all

/-- If lines are pending at the end, the last one was not the end of an entry. -/
theorem last_of_pending {fuel : Nat} {lines : List String} {s : Session κ} (hlines : lines ≠ [])
    (h : (s.feedAll fuel lines).2.pending ≠ []) :
    (s.feedAll fuel lines).1.getLast? = some .more := by
  induction lines generalizing s with
  | nil => exact absurd rfl hlines
  | cons line rest ih =>
    have hmore : (s.feed fuel line).2.pending ≠ [] → (s.feed fuel line).1 = .more := feed_pending
    cases hfeed : s.feed fuel line with
    | mk v s' =>
      rw [hfeed] at hmore
      by_cases hv : v.Stops
      · rw [feedAll_stops hfeed hv] at h
        obtain rfl : v = .more := hmore h
        exact hv.elim
      · rw [feedAll_cons hfeed hv] at h ⊢
        -- what is pending at the end was left by the last line
        cases rest with
        | nil => exact congrArg some (hmore h)
        | cons next rest =>
          rw [List.getLast?_cons, ih (by simp) h]
          rfl

/-! ## The simulation -/

/-- The session has taken the lines of an entry that starts `k` lines after the script, with the
scaffold and the machine that the script has there. -/
structure Follows (k : Nat) (s : Session κ) (t : Scaffold) (m : Machine κ) : Prop where
  entry : ∃ rows t', Scanner.scan s.pending = .ok rows ∧ Scaffold.empty.advance rows = .ok t' ∧
    t.Aligned (Position.Shift k) t'
  finished : t.finished = []
  frames : t.frames = [] ↔ s.pending = []
  machine : m.Aligned (fun p q => ∃ j < k, p.Shift j q) s.machine

omit [Console κ] in
/-- Between entries, only the machines matter. -/
theorem follows_of_machine {k : Nat} {m m' : Machine κ}
    (h : m.Aligned (fun p q => ∃ j < k, p.Shift j q) m') :
    Follows k ⟨m', []⟩ Scaffold.empty m where
  entry := ⟨[], Scaffold.empty, rfl, rfl, .nil, .nil⟩
  finished := rfl
  frames := Iff.intro (fun _ => rfl) fun _ => rfl
  machine := h

/-- Statements before a program run before it. -/
theorem program_append (fuel : Nat) (stmts : List Stmt) (p : Program) (m : Machine κ) :
    Eval.program fuel ⟨stmts ++ p.statements, p.fault⟩ m =
      (Eval.topLevels fuel stmts >>= fun _ => Eval.program fuel p) m := by
  induction stmts generalizing m with
  | nil => rfl
  | cons s rest ih =>
    simp only [List.cons_append, Eval.program, Eval.topLevels, bind] at ih ⊢
    cases Eval.topLevel fuel s m with
    | done v m' => exact ih m'
    | failed fault m' => rfl
    | panicked least most console => rfl
    | outOfFuel => rfl

section Simulation

variable {fuel k : Nat} {s : Session κ} {t : Scaffold} {m : Machine κ} {line : String}

/-- A row is at fault for both. -/
theorem Follows.agrees_of_fault (h : s.Follows k t m) {f g : Fault}
    (hfg : f.Aligned (Position.Shift k) g)
    (hentry : Program.statementsOf (s.pending ++ [line]) = .error g)
    (hquit : (s.pending.isEmpty && isQuit line) = false) (rest : List String) :
    s.Agrees fuel (k + s.pending.length) (line :: rest) (.failed f m) := by
  have hend : g.atEnd = false := by
    rw [← hfg.notAtEnd]
    simp only [Fault.atEnd, Fault.diagnostic, Diagnostic.atEnd, hfg.cause]
  have hfeed : s.feed fuel line =
      (.failed (g.diagnostic.report (s.pending ++ [line])), ⟨s.machine, []⟩) := by
    simp only [feed, hquit, hentry, hend, Bool.false_eq_true, if_false]
  refine ⟨?_, ?_⟩
  · rw [feedAll_stops hfeed trivial]
    exact h.machine.imp fun _ _ _ _ _ _ => trivial
  · rw [if_neg (by simp [hfg.notAtEnd])]
    exact ⟨[], line, rest, g, k, rfl, fun _ hv => absurd hv List.not_mem_nil,
      congrArg Prod.fst (feedAll_stops hfeed trivial rest), hfg.cause.symm, hfg.position, Or.inl rfl⟩

/-- The entry is complete, and both run it. -/
theorem Follows.agrees_of_complete (h : s.Follows k t m) {stmts stmts' : List Stmt}
    (hstmts : List.Forall₂ (Stmt.Aligned (Position.Shift k)) stmts stmts')
    (hentry : Program.statementsOf (s.pending ++ [line]) = .ok stmts')
    (hquit : (s.pending.isEmpty && isQuit line) = false) {rest : List String} {p : Program}
    (hrest : ∀ m₁ m₁' : Machine κ,
      m₁.Aligned (fun p q => ∃ j < k + s.pending.length + 1, p.Shift j q) m₁' →
      s.feed fuel line = (.ran, ⟨m₁', []⟩) →
      Agrees fuel (k + s.pending.length + 1) ⟨m₁', []⟩ rest (Eval.program fuel p m₁)) :
    s.Agrees fuel (k + s.pending.length) (line :: rest)
      (Eval.program fuel ⟨stmts ++ p.statements, p.fault⟩ m) := by
  -- a position is of this entry, or one that the session kept from an earlier one
  let R : Position → Position → Prop := fun p q =>
    p.Shift k q ∨ (∃ j < k, p.Shift j q) ∧ ∃ sub, s.machine.Holds sub ∧
      q ∈ Stmt.positionsOf sub.body
  have hmachine : m.Aligned R s.machine :=
    h.machine.imp fun p q hj sub hsub hq => Or.inr ⟨hj, sub, hsub, hq⟩
  have hbody : List.Forall₂ (Stmt.Aligned R) stmts stmts' :=
    Stmt.Aligned.impOf hstmts fun p q hp _ => Or.inl hp
  have hrun := Eval.aligned_topLevels fuel hbody m s.machine hmachine
  -- the session runs the entry at once, and the script before the statements after it
  have hfeed := show s.feed fuel line = _ by
    simp only [feed, hquit, hentry, Bool.false_eq_true, if_false]
    rfl
  rw [program_append]
  simp only [bind]
  generalize Eval.topLevels fuel stmts m = o, Eval.topLevels fuel stmts' s.machine = o'
    at hrun hfeed ⊢
  cases hrun with
  | outOfFuel => trivial
  | panicked least most console =>
    have hfed := feedAll_stops hfeed trivial rest
    exact ⟨by rw [hfed], [], fun _ hv => absurd hv List.not_mem_nil, congrArg Prod.fst hfed⟩
  | @done _ _ m₁ m₁' _ hend =>
    refine Agrees.cons hfeed (Or.inl rfl) (hrest m₁ m₁' ?_ hfeed)
    refine hend.imp fun p q hpq _ _ _ => ?_
    rcases hpq with hp | ⟨⟨j, hj, hp⟩, -⟩
    · exact ⟨k, by omega, hp⟩
    · exact ⟨j, by omega, hp⟩
  | @failed f g m₁ m₁' hfg hend =>
    refine ⟨?_, ?_⟩
    · rw [feedAll_stops hfeed trivial]
      exact hend.imp fun _ _ _ _ _ _ => trivial
    · rw [if_neg (by simp [hfg.notAtEnd])]
      have hverdicts := congrArg Prod.fst (feedAll_stops hfeed trivial rest)
      have hnone : ∀ v ∈ (s.feedAll fuel []).1, v.GoesOn := fun _ hv => absurd hv List.not_mem_nil
      rcases hfg.position with hp | ⟨⟨j, hj, hp⟩, hheld⟩
      · -- the fault is in the entry itself
        exact ⟨[], line, rest, g, k, rfl, hnone, hverdicts, hfg.cause.symm, hp, Or.inl rfl⟩
      · -- the fault is in a subroutine that an earlier entry defined
        exact ⟨[], line, rest, g, j, rfl, hnone, hverdicts, hfg.cause.symm, hp,
          Or.inr ⟨Nat.add_lt_add_right hj _, hheld⟩⟩

omit [Console κ] in
/-- The entry goes on after a row. -/
theorem Follows.concat (h : s.Follows k t m) {rows : List Row} {row row' : Row}
    {t' u u' : Scaffold} (hscan : Scanner.scan s.pending = .ok rows)
    (hadvance : Scaffold.empty.advance rows = .ok t')
    (hrow : Scanner.scanLine s.pending.length line = .ok row')
    (hu : t.step row = .ok u) (hu' : t'.step row' = .ok u')
    (hau : u.Aligned (Position.Shift k) u') (hopen : u.frames ≠ []) :
    Follows k ⟨s.machine, s.pending ++ [line]⟩ u m where
  entry := by
    refine ⟨rows ++ [row'], u', Scanner.scanLines_concat hscan ?_, ?_, hau⟩
    · rw [Nat.zero_add]
      exact hrow
    · rw [Scaffold.advance_append, hadvance]
      exact Scaffold.advance_cons_ok hu' []
  finished := Scaffold.step_finished h.finished hu hopen
  frames := iff_of_false hopen (by simp)
  machine := h.machine

/-- The entry is still open, and the session asks for more. -/
theorem agrees_of_open {g : Fault} (hend : g.atEnd = true)
    (hentry : Program.statementsOf (s.pending ++ [line]) = .error g)
    (hquit : (s.pending.isEmpty && isQuit line) = false) {rest : List String}
    {o : Outcome κ Unit}
    (hrest : s.feed fuel line = (.more, ⟨s.machine, s.pending ++ [line]⟩) →
      Agrees fuel (k + (s.pending ++ [line]).length) ⟨s.machine, s.pending ++ [line]⟩ rest o) :
    s.Agrees fuel (k + s.pending.length) (line :: rest) o := by
  have hfeed : s.feed fuel line = (.more, ⟨s.machine, s.pending ++ [line]⟩) := by
    simp only [feed, hquit, hentry, hend, Bool.false_eq_true, if_false, if_true]
  have hagrees := hrest hfeed
  rw [List.length_append] at hagrees
  exact Agrees.cons hfeed (Or.inr rfl) hagrees

/-- A line of a session that does not end is not the one that ends it. -/
theorem isQuit_eq_false {rest : List String} (hquit : .quit ∉ (s.feedAll fuel (line :: rest)).1) :
    (s.pending.isEmpty && isQuit line) = false := by
  by_contra hline
  have hfeed : s.feed fuel line = (.quit, s) := by
    simp only [feed, eq_true_of_ne_false hline, if_true]
  rw [feedAll_cons hfeed id] at hquit
  exact hquit List.mem_cons_self

/-- The lines are over: the script ends in a block exactly if the session has lines pending. -/
theorem Follows.agrees_nil (h : s.Follows k t m) :
    s.Agrees fuel (k + s.pending.length) [] (Eval.program fuel t.finish m) := by
  have halike : m.Alike s.machine := h.machine.imp fun _ _ _ _ _ _ => trivial
  have hnone : ∀ v ∈ (s.feedAll fuel []).1, v.GoesOn := fun _ hv => absurd hv List.not_mem_nil
  obtain ⟨done, frames⟩ := t
  obtain rfl : done = [] := h.finished
  cases frames with
  | nil => exact ⟨hnone, h.frames.1 rfl, halike⟩
  | cons f outer =>
    have hpending : s.pending ≠ [] := fun hp => by simpa using h.frames.2 hp
    exact ⟨halike, hnone, hpending⟩

/-- The session follows the script from a line to the end. -/
theorem Follows.agrees {rest : List String} {rows : List Row} (h : s.Follows k t m)
    (hrows : Scanner.scanLines (k + s.pending.length) rest = .ok rows)
    (hquit : .quit ∉ (s.feedAll fuel rest).1) :
    s.Agrees fuel (k + s.pending.length) rest (Eval.program fuel (t.run rows) m) := by
  induction rest generalizing k s t m rows with
  | nil =>
    obtain rfl : [] = rows := Except.ok.inj hrows
    exact h.agrees_nil
  | cons line rest ih =>
    -- the script takes the row of the line, and the session takes the same row, numbered anew
    obtain ⟨row, more, rfl, hrow, hmore⟩ := Scanner.scanLines_cons hrows
    obtain ⟨row', hrow', haligned⟩ := Scanner.scanLine_shift hrow
    obtain ⟨entryRows, t', hscan, hadvance, ht⟩ := h.entry
    have hentry := statementsOf_concat hscan hadvance hrow'
    have hline := isQuit_eq_false hquit
    rcases (Scaffold.aligned_step ht haligned).ok_or_error with
      ⟨u, u', hu, hu', hau⟩ | ⟨f, g, hu, hu', hfg⟩
    · have hfollows := h.concat hscan hadvance hrow' hu hu' hau
      rw [hu'] at hentry
      rw [Scaffold.run_cons_ok hu]
      obtain ⟨done, frames⟩ := u
      obtain ⟨done', frames'⟩ := u'
      obtain ⟨hdone, hframes⟩ := hau
      cases hframes with
      | nil =>
        -- no block is open any more: both run the entry, and the next line starts another
        have hafter := Scaffold.run_after done Scaffold.empty more
        simp only [Scaffold.after, Scaffold.empty, List.append_nil] at hafter
        rw [hafter]
        refine h.agrees_of_complete hdone hentry hline fun m₁ m₁' hm hfeed => ?_
        rw [feedAll_cons hfeed id] at hquit
        exact ih (follows_of_machine hm) hmore (List.not_mem_of_not_mem_cons hquit)
      | cons _ _ =>
        -- a block is open: the script reads on, and the line joins the pending ones
        refine agrees_of_open rfl hentry hline fun hfeed => ?_
        rw [feedAll_cons hfeed id] at hquit
        refine ih (hfollows (by simp)) ?_ (List.not_mem_of_not_mem_cons hquit)
        rw [List.length_append]
        exact hmore
    · rw [hu'] at hentry
      rw [Scaffold.run_cons_error hu, h.finished]
      exact h.agrees_of_fault hfg hentry hline rest

end Simulation

/-- **A script and a session over the same lines agree.** For lines that split into tokens, with
no line asking to end the session, compare the outcome of the script with the verdicts on its lines
one by one. If the script is done, the session goes on after every line and no entry is left. If the
script ends in a block, the session goes on after every line and asks for more after the last. If
the script fails otherwise, the session fails at one line, for the same cause in the same column. In
each case the machines, and so the consoles and the global names, are equal up to positions in the
bodies of subroutines. If the script panics, so does the session at one line, with the same
console. -/
theorem agrees_script (fuel : Nat) (lines : List String) (console : κ) (draws : Draws)
    (htokens : ∃ rows, Scanner.scan lines = .ok rows)
    (hquit : .quit ∉ ((start console draws).feedAll fuel lines).1) :
    (∀ m, Eval.lines fuel lines (Machine.start console true draws) = .done () m →
      (∀ v ∈ ((start console draws).feedAll fuel lines).1, v.GoesOn) ∧
        ((start console draws).feedAll fuel lines).2.pending = [] ∧
        m.Alike ((start console draws).feedAll fuel lines).2.machine) ∧
    (∀ fault m, Eval.lines fuel lines (Machine.start console true draws) = .failed fault m →
      fault.atEnd = true →
      (∀ v ∈ ((start console draws).feedAll fuel lines).1, v.GoesOn) ∧
        ((start console draws).feedAll fuel lines).1.getLast? = some .more ∧
        ((start console draws).feedAll fuel lines).2.pending ≠ [] ∧
        m.Alike ((start console draws).feedAll fuel lines).2.machine) ∧
    (∀ fault m, Eval.lines fuel lines (Machine.start console true draws) = .failed fault m →
      fault.atEnd = false →
      (start console draws).StopsFor fuel 0 lines fault ∧
        m.Alike ((start console draws).feedAll fuel lines).2.machine) ∧
    ∀ least most console',
      Eval.lines fuel lines (Machine.start console true draws) =
        .panicked least most console' →
      ((start console draws).feedAll fuel lines).2.machine.console = console' ∧
        ∃ before, (∀ v ∈ before, v.GoesOn) ∧
          ((start console draws).feedAll fuel lines).1 = before ++ [.panicked] := by
  obtain ⟨rows, hrows⟩ := htokens
  -- before the first line the two machines are the same, and nothing is pending
  have hstart : (start console draws).Follows 0 Scaffold.empty (Machine.start console true draws) :=
    follows_of_machine ⟨Table.aligned_empty, .none, rfl, rfl, rfl, rfl⟩
  have hagrees := hstart.agrees hrows hquit
  have hscript : Eval.lines fuel lines (Machine.start console true draws) =
      Eval.program fuel (Scaffold.empty.run rows) (Machine.start console true draws) := by
    simp only [Eval.lines, Program.ofLines, hrows, Except.map, Scaffold.ofRows_eq_run]
  rw [hscript]
  refine ⟨fun m hm => ?_, fun fault m hm hend => ?_, fun fault m hm hend => ?_,
    fun least most console' hpanic => ?_⟩
  · rw [hm] at hagrees
    exact hagrees
  · rw [hm] at hagrees
    obtain ⟨halike, hfault⟩ := hagrees
    rw [if_pos hend] at hfault
    refine ⟨hfault.1, last_of_pending ?_ hfault.2, hfault.2, halike⟩
    rintro rfl
    exact hfault.2 rfl
  · rw [hm] at hagrees
    obtain ⟨halike, hfault⟩ := hagrees
    rw [if_neg (by simp [hend])] at hfault
    exact ⟨hfault, halike⟩
  · rw [hpanic] at hagrees
    exact hagrees

/-- A loop whose condition is no truth value fails in the second entry of a session. -/
theorem agrees_script_loop :
    .quit ∉ ((start (Buffer.withInput [] none) .lowest).feedAll 9 ["print(1)", "do", "until 1"]).1 ∧
      (start (Buffer.withInput [] none) .lowest).StopsFor 9 0 ["print(1)", "do", "until 1"]
        ⟨.wrongKind "'until' condition" .boolean .integer, ⟨2, 6⟩⟩ := by
  have hquit : .quit ∉ ((start (Buffer.withInput [] none) .lowest).feedAll 9
      ["print(1)", "do", "until 1"]).1 := by decide +kernel
  have hfault : (Eval.lines 9 ["print(1)", "do", "until 1"]
      (Machine.start (Buffer.withInput [] none) true .lowest)).fault? =
      some ⟨.wrongKind "'until' condition" .boolean .integer, ⟨2, 6⟩⟩ := by decide +kernel
  obtain ⟨m, hscript⟩ := Outcome.fault?_eq_some hfault
  exact ⟨hquit, ((agrees_script 9 _ _ _ ⟨_, rfl⟩ hquit).2.2.1 _ m hscript rfl).1⟩

end Session

end Primer
