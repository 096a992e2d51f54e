import Primer.Proofs.Aligned.Program
import Primer.Proofs.Pointing.Scanner
import Primer.Proofs.Session.Agreement

/-!
# Faults point into the text

Every fault of a script names a character of it (`Eval.lines_pointed`): a fault of the scanner the
text that offends, and every other fault the first character of a token. So the report quotes a line
of the script, with the caret below that character.

That no other position comes up, from the reading of the tokens through subroutines that are stored
and called later to the report, is the alignment of a run with itself along the positions of its
tokens only (`Position.Only`).
-/

set_option autoImplicit false

namespace Primer

/-! ## What positions mean -/

/-- The position names a character of the lines. -/
def Position.PointsInto (lines : List String) (p : Position) : Prop :=
  ∃ s, lines[p.line]? = some s ∧ p.column < s.length

/-- The position is that of a lexeme of the lines, and its token starts there. -/
def Position.StartsToken (lines : List String) (p : Position) : Prop :=
  ∃ rows x, Scanner.scan lines = .ok rows ∧ x ∈ rows.flatten ∧ x.position = p ∧
    ∃ s, lines[p.line]? = some s ∧ Scanner.TokenAt s.toList x.token p.column

/-- The fault is that of a text in the lines which is no token. -/
def Fault.OffendsIn (lines : List String) (f : Fault) : Prop :=
  ∃ s, lines[f.position.line]? = some s ∧
    Scanner.FaultAt s.toList f.cause f.position.column

/-- The fault is of a text that does not split, or it stands at a token. -/
inductive Fault.PointsInto (lines : List String) (f : Fault) : Prop
  | lexical (hfamily : f.cause.family = .lexical) (h : f.OffendsIn lines)
  | token (hfamily : f.cause.family ≠ .lexical) (h : f.position.StartsToken lines)

/-- The position of such a fault points into the lines. -/
theorem Fault.PointsInto.position {lines : List String} {f : Fault} (h : f.PointsInto lines) :
    f.position.PointsInto lines := by
  cases h with
  | lexical hfamily h =>
    obtain ⟨s, hs, hfault⟩ := h
    exact ⟨s, hs, hfault.lt_length⟩
  | token hfamily h =>
    obtain ⟨rows, x, -, -, -, s, hs, htoken⟩ := h
    exact ⟨s, hs, htoken.lt_length⟩

namespace Scanner

/-- Every token that was scanned starts where it says. -/
theorem startsToken_of_scan {lines : List String} {rows : List Row} (h : scan lines = .ok rows) :
    ∀ x ∈ rows.flatten, x.position.StartsToken lines := by
  intro x hx
  have hstands := scanLines_stands 0 lines
  rw [show scanLines 0 lines = .ok rows from h] at hstands
  obtain ⟨k, s, hk, hs, htoken⟩ := hstands x hx
  rw [Nat.zero_add] at hk
  exact ⟨rows, x, h, hx, rfl, s, by rw [hk]; exact hs, htoken⟩

/-- A fault of the scanner points at the character that it rejects. -/
theorem pointsInto_of_scan {lines : List String} {fault : Fault} (h : scan lines = .error fault) :
    fault.PointsInto lines := by
  have hstands := scanLines_stands 0 lines
  rw [show scanLines 0 lines = .error fault from h] at hstands
  obtain ⟨k, s, hk, hs, hfault⟩ := hstands
  obtain ⟨n, offset, hreach, hoffends, hcolumn⟩ := hfault
  rw [Nat.zero_add] at hk
  exact .lexical hoffends.family
    ⟨s, by rw [hk]; exact hs, n, offset, hreach, hoffends, hcolumn⟩

end Scanner

/-! ## The report -/

namespace Diagnostic

/-- The padding before a caret keeps the tabs of its line and is blank otherwise. -/
theorem padding_eq {n : Nat} {cs : List Char} (h : n ≤ cs.length) :
    padding n cs = (cs.take n).map fun c => if c = '\t' then '\t' else ' ' := by
  induction cs generalizing n with
  | nil =>
    obtain rfl : n = 0 := Nat.le_zero.1 h
    rfl
  | cons c cs ih =>
    cases n with
    | zero => rfl
    | succ n => rw [padding, List.take_succ_cons, List.map_cons, ih (Nat.le_of_succ_le_succ h)]

/-- The report shows a line of the source and below it a caret, after as many characters as the
column says: a tab below each tab, and a space below any other character. -/
def Quotes (lines : List String) (d : Diagnostic) : Prop :=
  ∃ line pad, lines[d.position.line]? = some line ∧
    d.report lines = " ! ERROR\n" ++ d.headline ++ "\n" ++ line ++ "\n" ++ String.ofList pad ++ "^" ∧
    pad.length = d.position.column ∧
    ∀ i, i < d.position.column → ∃ c, line.toList[i]? = some c ∧
      pad[i]? = some (if c = '\t' then '\t' else ' ')

/-- A report on a position in the lines quotes the line that it is in. -/
theorem quotes_of_pointsInto {lines : List String} {d : Diagnostic}
    (h : d.position.PointsInto lines) : d.Quotes lines := by
  obtain ⟨line, hline, hcolumn⟩ := h
  have hlength : d.position.column ≤ line.toList.length := Nat.le_of_lt hcolumn
  refine ⟨line, padding d.position.column line.toList, hline, ?_, ?_, fun i hi => ?_⟩
  · -- the line exists, so that the report goes on after the headline
    simp only [report, hline, underline, String.append_assoc]
  · rw [padding_eq hlength, List.length_map, List.length_take_of_le hlength]
  · refine ⟨line.toList[i], List.getElem?_eq_getElem (by omega), ?_⟩
    rw [padding_eq hlength, List.getElem?_map, List.getElem?_take_of_lt hi,
      List.getElem?_eq_getElem (by omega)]
    rfl

end Diagnostic

/-! ## Runs that keep to positions -/

/-- The positions are one, for which the condition holds. -/
def Position.Only (P : Position → Prop) (p q : Position) : Prop := p = q ∧ P p

section Keeping

variable {P : Position → Prop} {κ : Type}

theorem Program.aligned_only {rows : List Row} (h : ∀ x ∈ rows.flatten, P x.position) :
    (Program.ofRows rows).Aligned (Position.Only P) (Program.ofRows rows) := by
  apply Program.aligned_ofRows
  rw [List.forall₂_same]
  intro row hrow
  rw [List.forall₂_same]
  intro x hx
  have hmem : row ∈ rows := (List.mem_filter.1 hrow).1
  exact ⟨rfl, rfl, h x (List.mem_flatten.2 ⟨row, hmem, hx⟩)⟩

/-- The machine keeps positions only for which the condition holds. -/
def Machine.KeepsOnly (P : Position → Prop) (m : Machine κ) : Prop := ∀ p, m.Keeps p → P p

/-- At the start there is no subroutine that could keep a position. -/
theorem Machine.keepsOnly_start (console : κ) (echo : Bool) (draws : Draws) :
    (Machine.start console echo draws).KeepsOnly P := by
  rintro p ⟨s, ⟨t, rfl | ht, slot, hslot, -⟩, -⟩
  · exact absurd hslot List.not_mem_nil
  · cases ht

theorem Machine.Aligned.keepsOnly {m m' : Machine κ} (h : m.Aligned (Position.Only P) m') :
    m'.KeepsOnly P := by
  intro q hq
  obtain ⟨p, rfl, hp⟩ := h.covers hq
  exact hp

/-- The run leaves positions only for which the condition holds. Its fault stands at such a position
too, and is none of the scanner. -/
def Outcome.KeepsOnly (P : Position → Prop) : Outcome κ Unit → Prop
  | .done _ m => m.KeepsOnly P
  | .failed fault m => fault.cause.family ≠ .lexical ∧ P fault.position ∧ m.KeepsOnly P
  | .panicked _ _ _ | .outOfFuel => True

/-- **A run keeps to the positions of its tokens and of its machine.** -/
theorem Eval.program_keepsOnly [Console κ] (fuel : Nat) {rows : List Row}
    (hrows : ∀ x ∈ rows.flatten, P x.position) {m : Machine κ} (hm : m.KeepsOnly P) :
    (Eval.program fuel (Program.ofRows rows) m).KeepsOnly P := by
  have hself : m.Aligned (Position.Only P) m :=
    Machine.aligned_self fun p hp => ⟨rfl, hm p hp⟩
  have hrun := matched_program fuel (Program.aligned_only hrows) hself
  generalize program fuel (Program.ofRows rows) m = o at hrun ⊢
  cases o with
  | panicked least most console => trivial
  | outOfFuel => trivial
  | done a m' =>
    cases hrun with
    | done hend => exact hend.keepsOnly
  | failed fault m' =>
    cases hrun with
    | failed hfault hend => exact ⟨hfault.notLexical, hfault.position.2, hend.keepsOnly⟩

end Keeping

/-! ## Scripts -/

namespace Eval

variable {κ : Type} [Console κ]

/-- A fault of lines that a machine runs points into them, or stands in a subroutine that the
machine held before. -/
theorem lines_fault (fuel : Nat) {lines : List String} {m m' : Machine κ} {fault : Fault}
    (h : Eval.lines fuel lines m = .failed fault m') :
    fault.PointsInto lines ∨ fault.cause.family ≠ .lexical ∧ m.Keeps fault.position := by
  simp only [Eval.lines, Program.ofLines] at h
  cases hscan : Scanner.scan lines with
  | error fault' =>
    -- nothing ran: the fault is that of the text which does not split
    simp only [hscan, Except.map, Exec.fail, Outcome.failed.injEq] at h
    obtain ⟨rfl, -⟩ := h
    exact Or.inl (Scanner.pointsInto_of_scan hscan)
  | ok rows =>
    simp only [hscan, Except.map] at h
    have hrun := program_keepsOnly (P := fun p => p.StartsToken lines ∨ m.Keeps p) fuel
      (fun x hx => Or.inl (Scanner.startsToken_of_scan hscan x hx)) fun p hp => Or.inr hp
    rw [h] at hrun
    obtain ⟨hfamily, hposition, -⟩ := hrun
    rcases hposition with htoken | hkept
    · exact Or.inl (.token hfamily htoken)
    · exact Or.inr ⟨hfamily, hkept⟩

/-- **Every fault of a script points into it.** It names a character of a line: the first character
of a token, unless the text does not split into tokens, and then the first character of what is no
token or the second point of a number. The report quotes the line with a caret below. -/
theorem lines_pointed (fuel : Nat) (lines : List String) (console : κ) (echo : Bool)
    (draws : Draws) (fault : Fault) (m : Machine κ)
    (h : Eval.lines fuel lines (Machine.start console echo draws) = .failed fault m) :
    fault.position.PointsInto lines ∧
      (fault.cause.family ≠ .lexical → fault.position.StartsToken lines) ∧
      (fault.cause.family = .lexical → fault.OffendsIn lines) ∧
      fault.diagnostic.Quotes lines := by
  have hpoints : fault.PointsInto lines := by
    rcases lines_fault fuel h with hpoints | ⟨-, hkept⟩
    · exact hpoints
    · exact (Machine.keepsOnly_start (P := fun _ => False) console echo draws _ hkept).elim
  refine ⟨hpoints.position, fun hfamily => ?_, fun hfamily => ?_,
    Diagnostic.quotes_of_pointsInto hpoints.position⟩
  · cases hpoints with
    | lexical hlexical _ => exact absurd hlexical hfamily
    | token _ htoken => exact htoken
  · cases hpoints with
    | lexical _ hoffends => exact hoffends
    | token hother _ => exact absurd hfamily hother

/-- A name that is not declared, behind a tab in a procedure that is called two lines later. -/
theorem lines_pointed_call :
    let source := ["procedure p()", "\tprint(1 + y)", "endprocedure", "p()"]
    let fault : Fault := ⟨.undeclared "y", ⟨1, 11⟩⟩
    (∃ m, Eval.lines 9 source (Machine.start (Buffer.withInput [] none) false .lowest) =
      .failed fault m) ∧ fault.position.StartsToken source ∧ fault.diagnostic.Quotes source := by
  have hfault : (Eval.lines 9 ["procedure p()", "\tprint(1 + y)", "endprocedure", "p()"]
      (Machine.start (Buffer.withInput [] none) false .lowest)).fault? =
      some ⟨.undeclared "y", ⟨1, 11⟩⟩ := by decide +kernel
  obtain ⟨m, hscript⟩ := Outcome.fault?_eq_some hfault
  obtain ⟨-, htoken, -, hquotes⟩ := lines_pointed 9 _ _ false _ _ m hscript
  exact ⟨⟨m, hscript⟩, htoken (by decide), hquotes⟩

end Eval

end Primer
