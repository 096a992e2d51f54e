import Primer.Proofs.Pointing

/-!
# Where the reports of a session point

A report of a session quotes the lines of the entry that failed. A fault that the entry itself
causes points into them. But a subroutine keeps the positions of the entry that defined it, so a
fault inside its body names a token of that earlier entry (`Session.feed_pointed`), and the report
looks it up among the wrong lines: `Session.quotes_another_line` is such a session.

The invariant of a session is that every position which its machine keeps is that of a token of an
entry that was run before (`Session.Reached.keepsOnly`).
-/

set_option autoImplicit false

namespace Primer

/-! ## Reading and running an entry -/

namespace Program

/-- Lines have statements if they scan and parse without a fault. -/
theorem statementsOf_ok {lines : List String} {stmts : List Stmt}
    (h : statementsOf lines = .ok stmts) :
    ∃ rows, Scanner.scan lines = .ok rows ∧ ofRows rows = ⟨stmts, none⟩ := by
  simp only [statementsOf, ofLines] at h
  cases hscan : Scanner.scan lines with
  | error fault => simp [hscan, Except.map, Except.bind] at h
  | ok rows =>
    simp only [hscan, Except.map, Except.bind, complete] at h
    refine ⟨rows, rfl, ?_⟩
    generalize ofRows rows = p at h ⊢
    obtain ⟨statements, fault⟩ := p
    cases fault with
    | some fault => cases h
    | none =>
      obtain rfl : statements = stmts := Except.ok.inj h
      rfl

/-- A fault of lines that do not read as statements points into them. -/
theorem statementsOf_error {lines : List String} {fault : Fault}
    (h : statementsOf lines = .error fault) : fault.PointsInto lines := by
  simp only [statementsOf, ofLines] at h
  cases hscan : Scanner.scan lines with
  | error fault' =>
    simp only [hscan, Except.map, Except.bind, Except.error.injEq] at h
    exact h ▸ Scanner.pointsInto_of_scan hscan
  | ok rows =>
    simp only [hscan, Except.map, Except.bind, complete] at h
    have hfault := (Program.aligned_only (Scanner.startsToken_of_scan hscan)).fault
    generalize (ofRows rows).fault = found at h hfault
    cases hfault with
    | none => cases h
    | some hmatched =>
      obtain rfl := Except.error.inj h
      exact .token hmatched.notLexical hmatched.position.2

end Program

/-- The statements of lines keep to the positions of the tokens and of the machine. -/
theorem Eval.topLevels_keepsOnly {κ : Type} [Console κ] (fuel : Nat) {lines : List String}
    {stmts : List Stmt} (hstmts : Program.statementsOf lines = .ok stmts)
    {P : Position → Prop} (hP : ∀ p, p.StartsToken lines → P p) {m : Machine κ}
    (hm : m.KeepsOnly P) : (Eval.topLevels fuel stmts m).KeepsOnly P := by
  obtain ⟨rows, hscan, hrows⟩ := Program.statementsOf_ok hstmts
  have hrun := program_keepsOnly fuel
    (fun x hx => hP _ (Scanner.startsToken_of_scan hscan x hx)) hm
  rw [hrows] at hrun
  simp only [Eval.program, bind] at hrun
  generalize topLevels fuel stmts m = o at hrun ⊢
  cases o with
  | done a m' => exact hrun
  | failed fault m' => exact hrun
  | panicked least most console => trivial
  | outOfFuel => trivial

namespace Session

variable {κ : Type} [Console κ]

/-- The fault that the entry ends in with the given line, if it ends in one. -/
def fault? (fuel : Nat) (s : Session κ) (line : String) : Option Fault :=
  match Program.statementsOf (s.pending ++ [line]) with
  | .error fault => some fault
  | .ok statements => (Eval.topLevels fuel statements s.machine).fault?

/-- A session after some history, with the entries that were run or reported so far. -/
inductive Reached : List (List String) → Session κ → Prop
  | start (console : κ) (draws : Draws) : Reached [] (start console draws)
  | discard {past : List (List String)} {s : Session κ} (h : Reached past s) :
      Reached past s.discard
  | waits {past : List (List String)} {s : Session κ} {fuel : Nat} {line : String}
      (h : Reached past s)
      (hwaits : (s.feed fuel line).1 = .more ∨ (s.feed fuel line).1 = .quit) :
      Reached past (s.feed fuel line).2
  | ended {past : List (List String)} {s : Session κ} {fuel : Nat} {line : String}
      (h : Reached past s)
      (hended : (s.feed fuel line).1 = .ran ∨ ∃ report, (s.feed fuel line).1 = .failed report) :
      Reached (past ++ [s.pending ++ [line]]) (s.feed fuel line).2

/-- Lines after which the session goes on continue a history. -/
theorem Reached.feedAll {past : List (List String)} {s : Session κ} (h : Reached past s)
    (fuel : Nat) {lines : List String} (hlines : ∀ v ∈ (s.feedAll fuel lines).1, v.GoesOn) :
    ∃ past', Reached past' (s.feedAll fuel lines).2 := by
  induction lines generalizing past s with
  | nil => exact ⟨past, h⟩
  | cons line rest ih =>
    cases hfeed : s.feed fuel line with
    | mk v s' =>
      by_cases hv : v.Stops
      · rw [feedAll_stops hfeed hv] at hlines
        exact absurd hv (hlines v List.mem_cons_self).not_stops
      · rw [feedAll_cons hfeed hv] at hlines ⊢
        have hrest : ∀ w ∈ (s'.feedAll fuel rest).1, w.GoesOn := fun w hw =>
          hlines w (List.mem_cons_of_mem v hw)
        have hs' : (s.feed fuel line).2 = s' := congrArg Prod.snd hfeed
        have hv' : (s.feed fuel line).1 = v := congrArg Prod.fst hfeed
        -- an entry was ended by this line, or waits for the next
        rcases hlines v List.mem_cons_self with rfl | rfl
        · have hnext := h.ended (Or.inl hv')
          rw [hs'] at hnext
          exact ih hnext hrest
        · have hnext := h.waits (Or.inl hv')
          rw [hs'] at hnext
          exact ih hnext hrest

/-- A line that is taken leaves only positions of the entry and of the machine before. -/
theorem feed_keepsOnly {P : Position → Prop} (fuel : Nat) {s : Session κ} {line : String}
    (hentry : ∀ p, p.StartsToken (s.pending ++ [line]) → P p) (hm : s.machine.KeepsOnly P) :
    (s.feed fuel line).2.machine.KeepsOnly P := by
  fun_cases Session.feed fuel s line with
  | case4 _ entry statements hread _ m hrun =>
    have hkept := Eval.topLevels_keepsOnly fuel hread hentry hm
    rw [hrun] at hkept
    exact hkept
  | case5 _ entry statements hread fault m hrun =>
    have hkept := Eval.topLevels_keepsOnly fuel hread hentry hm
    rw [hrun] at hkept
    exact hkept.2.2
  | _ => exact hm

/-- A session that asks for more, or is asked to end, has run nothing. -/
theorem machine_of_waits {fuel : Nat} {s : Session κ} {line : String}
    (h : (s.feed fuel line).1 = .more ∨ (s.feed fuel line).1 = .quit) :
    (s.feed fuel line).2.machine = s.machine := by
  revert h
  fun_cases Session.feed fuel s line with
  | case1 | case2 => exact fun _ => rfl
  | _ => rintro (h | h) <;> cases h

/-- The position is that of a token of an entry of the history. -/
def Recalls (past : List (List String)) (p : Position) : Prop :=
  ∃ entry ∈ past, p.StartsToken entry

/-- All positions that the machine of a session keeps come from its history. -/
theorem Reached.keepsOnly {past : List (List String)} {s : Session κ} (h : Reached past s) :
    s.machine.KeepsOnly (Recalls past) := by
  -- an entry joins the history in the step that may store its subroutines
  have hstep : ∀ {past : List (List String)} {s : Session κ} (fuel : Nat) (line : String),
      s.machine.KeepsOnly (Recalls past) →
      (s.feed fuel line).2.machine.KeepsOnly (Recalls (past ++ [s.pending ++ [line]])) := by
    intro past s fuel line ih
    apply feed_keepsOnly
    · intro p hp
      exact ⟨_, List.mem_append_right past (List.mem_singleton_self _), hp⟩
    · intro p hp
      obtain ⟨entry, hentry, hp⟩ := ih p hp
      exact ⟨entry, List.mem_append_left _ hentry, hp⟩
  induction h with
  | start console draws => exact Machine.keepsOnly_start console true draws
  | discard _ ih => exact ih
  | waits _ hwaits ih =>
    rw [machine_of_waits hwaits]
    exact ih
  | ended _ _ ih => exact hstep _ _ ih

/-- A report is that of the fault the entry ends in, which points into the entry or stands in a
subroutine that was held before. -/
theorem feed_failed {fuel : Nat} {s : Session κ} {line report : String}
    (h : (s.feed fuel line).1 = .failed report) :
    ∃ fault, s.fault? fuel line = some fault ∧
      report = fault.diagnostic.report (s.pending ++ [line]) ∧
      (fault.PointsInto (s.pending ++ [line]) ∨ s.machine.Keeps fault.position) := by
  -- of the cases of feeding a line, two fail
  revert h
  fun_cases Session.feed fuel s line with
  | case3 _ entry fault hread =>
    intro h
    refine ⟨fault, ?_, (Verdict.failed.inj h).symm, Or.inl ?_⟩
    · rw [fault?, hread]
    · exact Program.statementsOf_error hread
  | case5 _ entry statements hread fault m hrun =>
    intro h
    refine ⟨fault, ?_, (Verdict.failed.inj h).symm, ?_⟩
    · rw [fault?, hread]
      dsimp only
      rw [hrun]
      rfl
    · -- a body of an earlier entry was run, or a statement of this one
      have hkept := Eval.topLevels_keepsOnly fuel hread
        (P := fun p => p.StartsToken (s.pending ++ [line]) ∨ s.machine.Keeps p)
        (fun p hp => Or.inl hp) fun p hp => Or.inr hp
      rw [hrun] at hkept
      obtain ⟨hfamily, hposition, -⟩ := hkept
      exact hposition.imp_left (.token hfamily)
  | _ =>
    intro h
    cases h

/-- **Where the report of a session points.** The fault of an entry points into the entry, or it
stands in a subroutine that the session held before, at a token of an earlier entry. -/
theorem feed_pointed (fuel : Nat) (past : List (List String)) (s : Session κ)
    (line report : String) (hreached : Reached past s)
    (hfeed : (s.feed fuel line).1 = .failed report) :
    ∃ fault, s.fault? fuel line = some fault ∧
      report = fault.diagnostic.report (s.pending ++ [line]) ∧
      (fault.PointsInto (s.pending ++ [line]) ∧ fault.diagnostic.Quotes (s.pending ++ [line]) ∨
        s.machine.Keeps fault.position ∧
          ∃ entry ∈ past, fault.position.StartsToken entry) := by
  obtain ⟨fault, hfault, hreport, hpoints | hkept⟩ := feed_failed hfeed
  · exact ⟨fault, hfault, hreport,
      Or.inl ⟨hpoints, Diagnostic.quotes_of_pointsInto hpoints.position⟩⟩
  · exact ⟨fault, hfault, hreport, Or.inr ⟨hkept, hreached.keepsOnly _ hkept⟩⟩

/-- A call of the second entry fails in a procedure that the first one defined. -/
theorem feed_pointed_call :
    let s := ((start (Buffer.withInput [] none) .lowest).feedAll 9
      ["procedure p()", "print(x)", "endprocedure"]).2
    let report := " ! ERROR\nIdentifier Error: 'x' has not been declared (line 2, column 7)"
    (∃ past, Reached past s) ∧ (s.feed 9 "p()").1 = .failed report ∧
      ∃ (past : List (List String)) (fault : Fault), s.fault? 9 "p()" = some fault ∧
        report = fault.diagnostic.report (s.pending ++ ["p()"]) ∧
        (fault.PointsInto (s.pending ++ ["p()"]) ∧
            fault.diagnostic.Quotes (s.pending ++ ["p()"]) ∨
          s.machine.Keeps fault.position ∧
            ∃ entry ∈ past, fault.position.StartsToken entry) := by
  intro s report
  obtain ⟨past, hreached⟩ : ∃ past, Reached past s :=
    (Reached.start _ _).feedAll 9 (by decide +kernel)
  have hfeed : (s.feed 9 "p()").1 = .failed report := by decide +kernel
  exact ⟨⟨past, hreached⟩, hfeed, past, feed_pointed 9 past s "p()" report hreached hfeed⟩

/-- A procedure that the first entry defined fails in the second. The report quotes the call, which
is the second line of the second entry, with the caret beyond its end, in place of the second line
of the first entry, which holds the name that is not declared. -/
theorem quotes_another_line :
    let s := ((start (Buffer.withInput [] none) .lowest).feedAll 9
      ["procedure p()", "print(x)", "endprocedure", "if True then", "p()"]).2
    (∃ past, Reached past s) ∧ s.pending = ["if True then", "p()"] ∧
      s.fault? 9 "endif" = some ⟨.undeclared "x", ⟨1, 6⟩⟩ ∧
      (s.feed 9 "endif").1 = .failed
        " ! ERROR\nIdentifier Error: 'x' has not been declared (line 2, column 7)\np()\n      ^" ∧
      ¬ Fault.PointsInto (s.pending ++ ["endif"]) ⟨.undeclared "x", ⟨1, 6⟩⟩ := by
  intro s
  have hpending : s.pending = ["if True then", "p()"] := by decide +kernel
  refine ⟨(Reached.start _ _).feedAll 9 (by decide +kernel), hpending, by decide +kernel,
    by decide +kernel, ?_⟩
  rw [hpending]
  intro hpoints
  -- the line of that number in the second entry is too short
  obtain ⟨line, hline, hcolumn⟩ := hpoints.position
  obtain rfl : "p()" = line := Option.some.inj hline
  exact absurd hcolumn (by decide)

end Session

end Primer
