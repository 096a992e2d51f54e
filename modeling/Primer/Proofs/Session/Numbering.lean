import Primer.Proofs.Aligned.Eval
import Primer.Token.Scanner

/-!
# Lines that are numbered from elsewhere

The lines of a source are numbered through, and the lines of an entry are numbered from its start.
Splitting a line into tokens does not depend on its number (`Scanner.scanLine_shift`), so the two
readings of a line are aligned along the relation that one number is the other moved by a constant.

What a run keeps of positions are those in the bodies of subroutines that a machine holds, so only
they matter for an alignment of machines (`Machine.Aligned.imp`).
-/

set_option autoImplicit false

namespace Primer

/-- The second position, with its line counted from `k` lines further up, is the first. -/
def Position.Shift (k : Nat) (p q : Position) : Prop :=
  p.line = k + q.line ∧ p.column = q.column

namespace Scanner

/-- A character of a line that splits stands in a gap, or starts a token. -/
theorem scanFrom_cases {line column : Nat} {c : Char} {cs : List Char} {row : Row}
    (h : scanFrom line column 0 (c :: cs) = .ok row) :
    (∃ more, piece c cs = .gap more ∧ scanFrom line (column + 1) more cs = .ok row) ∨
    ∃ t more rest, piece c cs = .token t more ∧ scanFrom line (column + 1) more cs = .ok rest ∧
      row = ⟨t, line, column⟩ :: rest := by
  simp only [scanFrom] at h
  cases hpiece : piece c cs with
  | gap more =>
    rw [hpiece] at h
    exact Or.inl ⟨more, rfl, h⟩
  | bad cause offset =>
    rw [hpiece] at h
    cases h
  | token t more =>
    rw [hpiece] at h
    cases hrest : scanFrom line (column + 1) more cs with
    | error fault => simp only [hrest, reduceCtorEq] at h
    | ok rest =>
      simp only [hrest, Except.ok.injEq] at h
      exact Or.inr ⟨t, more, rest, rfl, hrest, h.symm⟩

/-- A line that is numbered anew has the same tokens, with their lines shifted. -/
theorem scanFrom_shift (k line : Nat) :
    ∀ (column skip : Nat) (cs : List Char) (row : Row),
      scanFrom (k + line) column skip cs = .ok row →
      ∃ row', scanFrom line column skip cs = .ok row' ∧
        List.Forall₂ (Lexeme.Aligned (Position.Shift k)) row row' := by
  intro column skip cs
  induction cs generalizing column skip with
  | nil =>
    intro row h
    obtain rfl : [] = row := Except.ok.inj h
    exact ⟨[], rfl, .nil⟩
  | cons c cs ih =>
    intro row h
    cases skip with
    | succ skip => exact ih _ _ row h
    | zero =>
      rcases scanFrom_cases h with ⟨more, hpiece, hrest⟩ | ⟨t, more, rest, hpiece, hrest, rfl⟩
      · simp only [scanFrom, hpiece]
        exact ih _ _ row hrest
      · obtain ⟨rest', hrest', haligned⟩ := ih _ _ rest hrest
        refine ⟨⟨t, line, column⟩ :: rest', ?_, .cons ⟨rfl, rfl, rfl⟩ haligned⟩
        simp only [scanFrom, hpiece, hrest']

/-- A line gives the same tokens under any number. -/
theorem scanLine_shift {k i : Nat} {s : String} {row : Row} (h : scanLine (k + i) s = .ok row) :
    ∃ row', scanLine i s = .ok row' ∧
      List.Forall₂ (Lexeme.Aligned (Position.Shift k)) row row' :=
  scanFrom_shift k i 0 0 s.toList row h

theorem scanLines_cons {i : Nat} {s : String} {rest : List String} {rows : List Row}
    (h : scanLines i (s :: rest) = .ok rows) :
    ∃ row more, rows = row :: more ∧ scanLine i s = .ok row ∧
      scanLines (i + 1) rest = .ok more := by
  simp only [scanLines] at h
  split at h
  · cases h
  · next row hrow =>
    split at h
    · cases h
    · next more hmore => exact ⟨row, more, (Except.ok.inj h).symm, hrow, hmore⟩

/-- Lines may be scanned in two parts. -/
theorem scanLines_append {more : List String} {moreRows : List Row} :
    ∀ {i : Nat} {lines : List String} {rows : List Row}, scanLines i lines = .ok rows →
      scanLines (i + lines.length) more = .ok moreRows →
      scanLines i (lines ++ more) = .ok (rows ++ moreRows) := by
  intro i lines
  induction lines generalizing i with
  | nil =>
    intro rows h hmore
    obtain rfl : [] = rows := Except.ok.inj h
    exact hmore
  | cons first rest ih =>
    intro rows h hmore
    obtain ⟨row, later, rfl, hrow, hlater⟩ := scanLines_cons h
    rw [List.length_cons, Nat.add_comm rest.length, ← Nat.add_assoc] at hmore
    simp only [List.cons_append, scanLines, hrow, ih hlater hmore]

theorem scanLines_concat {i : Nat} {lines : List String} {rows : List Row} {s : String} {row : Row}
    (h : scanLines i lines = .ok rows) (hrow : scanLine (i + lines.length) s = .ok row) :
    scanLines i (lines ++ [s]) = .ok (rows ++ [row]) :=
  scanLines_append h (by simp only [scanLines, hrow])

end Scanner

/-! ## What a machine keeps of positions -/

/-- Some name of the active call or some global name stands for the subroutine. -/
def Machine.Holds {κ : Type} (m : Machine κ) (s : Subroutine) : Prop :=
  ∃ t : Table, (t = m.globals ∨ m.scope = some t) ∧
    ∃ slot ∈ t.slots, slot.value = some (.callable (.user s))

/-- The position stands in the body of a subroutine that the machine holds. -/
def Machine.Keeps {κ : Type} (m : Machine κ) (p : Position) : Prop :=
  ∃ s, m.Holds s ∧ p ∈ Stmt.positionsOf s.body

section Weakening

variable {R Q : Position → Position → Prop}

/-- A wider relation serves for the positions in bodies. -/
theorem Value.Aligned.imp {v w : Value} (h : v.Aligned R w)
    (hQ : ∀ p q, R p q → ∀ s, w = .callable (.user s) → q ∈ Stmt.positionsOf s.body → Q p q) :
    v.Aligned Q w := by
  cases h with
  | integer n => exact .integer n
  | float x => exact .float x
  | boolean b => exact .boolean b
  | text s => exact .text s
  | native n => exact .native n
  | user kind name params hbody =>
    exact .user kind name params (Stmt.Aligned.impOf hbody fun p q hr hq => hQ p q hr _ rfl hq)

theorem Table.Aligned.imp {t u : Table} (h : t.Aligned R u)
    (hQ : ∀ p q, R p q → ∀ s, ∀ slot ∈ u.slots, slot.value = some (.callable (.user s)) →
      q ∈ Stmt.positionsOf s.body → Q p q) : t.Aligned Q u := by
  obtain ⟨ss⟩ := t
  obtain ⟨us⟩ := u
  change List.Forall₂ (Slot.Aligned R) ss us at h
  show List.Forall₂ (Slot.Aligned Q) ss us
  induction h with
  | nil => exact .nil
  | @cons s u ss us hs _ ih =>
    refine .cons ⟨hs.name, ?_, hs.isSealed⟩ (ih fun p q hr sub slot hslot =>
      hQ p q hr sub slot (List.mem_cons_of_mem u hslot))
    -- a subroutine that the first slot stands for is one that the table holds
    have hvalue := hs.value
    have hheld : ∀ p q, R p q → ∀ sub, u.value = some (.callable (.user sub)) →
        q ∈ Stmt.positionsOf sub.body → Q p q := fun p q hr sub =>
      hQ p q hr sub u List.mem_cons_self
    generalize s.value = x, u.value = y at hvalue hheld ⊢
    cases hvalue with
    | none => exact .none
    | some hv => exact .some (hv.imp fun p q hr sub hw => hheld p q hr sub (congrArg some hw))

/-- Only the positions in subroutines that the second machine holds matter. -/
theorem Machine.Aligned.imp {κ : Type} {m m' : Machine κ} (h : m.Aligned R m')
    (hQ : ∀ p q, R p q → ∀ s, m'.Holds s → q ∈ Stmt.positionsOf s.body → Q p q) :
    m.Aligned Q m' := by
  refine ⟨h.globals.imp fun p q hr s slot hslot hvalue =>
      hQ p q hr s ⟨m'.globals, Or.inl rfl, slot, hslot, hvalue⟩,
    ?_, h.depth, h.echo, h.console, h.draws⟩
  have hscope := h.scope
  have hheld : ∀ t, m'.scope = some t → ∀ p q, R p q → ∀ s, ∀ slot ∈ t.slots,
      slot.value = some (.callable (.user s)) → q ∈ Stmt.positionsOf s.body → Q p q :=
    fun t ht p q hr s slot hslot hvalue => hQ p q hr s ⟨t, Or.inr ht, slot, hslot, hvalue⟩
  generalize m.scope = x, m'.scope = y at hscope hheld ⊢
  cases hscope with
  | none => exact .none
  | some ht => exact .some (ht.imp (hheld _ rfl))

/-- Every position in a subroutine of the second table faces one of the first. -/
theorem Table.Aligned.covers {t u : Table} (h : t.Aligned R u) {slot : Slot} (hslot : slot ∈ u.slots)
    {s : Subroutine} (hvalue : slot.value = some (.callable (.user s))) :
    ∀ q ∈ Stmt.positionsOf s.body, ∃ p, R p q := by
  obtain ⟨ss⟩ := t
  obtain ⟨us⟩ := u
  change List.Forall₂ (Slot.Aligned R) ss us at h
  induction h with
  | nil => exact absurd hslot List.not_mem_nil
  | @cons x _ _ _ hs _ ih =>
    rcases List.mem_cons.1 hslot with rfl | hslot
    · have hfacing := hs.value
      rw [hvalue] at hfacing
      generalize x.value = v at hfacing
      cases hfacing with
      | some hv =>
        cases hv with
        | user kind name params hbody => exact Stmt.Aligned.coversOf hbody
    · exact ih hslot

/-- Every position that the second machine keeps faces one. -/
theorem Machine.Aligned.covers {κ : Type} {m m' : Machine κ} (h : m.Aligned R m') {q : Position}
    (hq : m'.Keeps q) : ∃ p, R p q := by
  obtain ⟨s, ⟨t, ht, slot, hslot, hvalue⟩, hq⟩ := hq
  rcases ht with rfl | ht
  · exact h.globals.covers hslot hvalue q hq
  · have hscope := h.scope
    rw [ht] at hscope
    generalize m.scope = scope at hscope
    cases hscope with
    | some hfacing => exact hfacing.covers hslot hvalue q hq

/-- A machine is aligned with itself if the positions that it keeps are related to themselves. -/
theorem Machine.aligned_self {κ : Type} {m : Machine κ} (h : ∀ p, m.Keeps p → R p p) :
    m.Aligned R m := by
  apply (Machine.aligned_refl (fun _ => rfl) m).imp
  rintro p _ rfl s hs hp
  exact h p ⟨s, hs, hp⟩

end Weakening

end Primer
