import Primer.Proofs.Progress.Readers
import Primer.Proofs.Scaffold.Descent
import Primer.Proofs.WellFormed.Parser

/-!
# Every call makes progress

The walks through statements end as the readers do (`Walk.DescendsWithin`): a statement and an arm
of a conditional end at the beginning of a later row, and a body ends in the row of the word that
closes it. With every statement and every arm the rows that are left get fewer, so the bound on
them is never met.

A parser is called again and again, also after failures, and may stand in the middle of a row or at
the end of one. Wherever it stands, the next call comes to an end and moves on through the rows
without leaving a lexeme out (`Parser.Advances`, `Parser.calls_progress`).
-/

set_option autoImplicit false

namespace Primer

namespace Walk

open RowReader (onLine)

variable {origin : Cursor} {α β : Type}

/-- At the beginning of a row, with fewer rows left than the given number. -/
def Before (k : Nat) (_ : α) (c : Cursor) : Prop := c.taken = 0 ∧ c.rows.length < k

/-- In a row with fewer rows after it than the given number. -/
def InRow (k : Nat) (_ : α) (c : Cursor) : Prop :=
  ∃ (l : Line) (later : List Row), c = l.under later ∧ later.length < k

/-! ## Rows one after the other -/

section Rows

variable {later : List Row} {l : Line}

/-- What is read from a row leaves the rows after it alone. -/
theorem EndsAs.onLine {x : Walk origin α} {reader : LineReader α} {good : α → Line → Prop}
    (h : EndsAs (Line.under later) x reader good l) :
    EndsAs id x (onLine reader) (fun a c => ∃ m : Line, c = m.under later ∧ good a m)
      (l.under later) := by
  intro trail
  have hx := h trail
  cases hread : reader l with
  | ok a m =>
    have hline : RowReader.onLine reader (l.under later) = .ok a (m.under later) := by
      simp only [RowReader.onLine, Line.under, hread]
    rw [hread] at hx
    rw [hline]
    exact ⟨⟨m, rfl, hx.1⟩, hx.2⟩
  | error fault m =>
    have hline : RowReader.onLine reader (l.under later) = .error fault (m.under later) := by
      simp only [RowReader.onLine, Line.under, hread]
    rw [hread] at hx
    rw [hline]
    exact hx

/-- The end of a row is reached as by the reader, and the rows left are fewer. -/
theorem endsAs_finishLine (later : List Row) (l : Line) : EndsAs id (finishLine : Walk origin Unit)
    RowReader.finishLine (Before (later.length + 1)) (l.under later) := by
  obtain ⟨rest, taken, previous⟩ := l
  intro trail
  cases rest with
  | nil => exact ⟨⟨rfl, Nat.lt_succ_self _⟩, _, rfl⟩
  | cons x xs => exact ⟨trail, rfl⟩

theorem endsAs_header {x : Walk origin α} {reader : LineReader α} {good : α → Line → Prop}
    (h : EndsAs (Line.under later) x reader good l) :
    EndsAs id (header x) (Stmt.header reader) (Before (later.length + 1)) (l.under later) := by
  refine h.onLine.bind ?_
  rintro a _ ⟨m, rfl, -⟩
  exact (endsAs_finishLine later m).bind fun _ _ hc => endsAs_pure hc

theorem EndsAs.map {x : Walk origin α} {y : RowReader α} {c : Cursor} {good : β → Cursor → Prop}
    {f : α → β} (h : EndsAs id x y (fun a d => good (f a) d) c) :
    EndsAs id (f <$> x) (f <$> y) good c := by
  have hmap : (f <$> y) c = (y >>= fun a => pure (f a)) c := by
    show EStateM.map f y c = EStateM.bind y (fun a => EStateM.pure (f a)) c
    simp only [EStateM.map, EStateM.bind, EStateM.pure]
  have hx : EndsAs id (x >>= fun a => pure (f a)) (y >>= fun a => pure (f a)) good c :=
    h.bind fun a d hd => endsAs_pure hd
  unfold EndsAs at hx ⊢
  rw [hmap]
  exact hx

theorem endsAs_peekLexeme (c : Cursor) : EndsAs id (peekLexeme : Walk origin (Option Lexeme))
    RowReader.peekLexeme (fun a d => a = c.next? ∧ d = c) c := by
  refine endsAs_look _ ?_
  obtain ⟨rows, taken, previous⟩ := c
  rcases rows with _ | ⟨_ | ⟨x, tail⟩, later⟩ <;> rfl

theorem endsAs_assignFollows (c : Cursor) : EndsAs id (assignFollows : Walk origin Bool)
    Stmt.assignFollows (fun _ d => d = c) c := by
  refine (endsAs_look (y := Stmt.assignFollows) (fun c => _) ?_).imp fun _ _ h => h.2
  obtain ⟨rows, taken, previous⟩ := c
  rcases rows with _ | ⟨_ | ⟨x, _ | ⟨x', tail⟩⟩, later⟩ <;> rfl

/-- Looking for the end of a block takes no token. -/
theorem endsAs_peekEnd (block : Block) (c : Cursor) :
    EndsAs id (peekEnd block : Walk origin (Option BodyEnd)) (Stmt.peekEnd block)
      (fun _ d => d = c) c := by
  refine (endsAs_look (y := Stmt.peekEnd block) (fun c => _) ?_).imp fun _ _ h => h.2
  obtain ⟨rows, taken, previous⟩ := c
  rcases rows with _ | ⟨_ | ⟨⟨token, pos⟩, tail⟩, later⟩
  · rfl
  · rfl
  · cases token <;> rfl

/-- Blank rows are left one after the other. -/
theorem endsAs_nextRow (c : Cursor) : EndsAs id (nextRow : Walk origin Bool) RowReader.nextRow
    (fun more d => d = c.skipBlank ∧ more = !d.rows.isEmpty) c := by
  obtain ⟨rows, taken, previous⟩ := c
  suffices h : ∀ trail : Trail origin ⟨rows, taken, previous⟩, ∃ trail',
      (skipRows (rows.length + 1) : Walk origin Bool) ⟨⟨rows, taken, previous⟩, trail⟩ =
        some (.ok (!(Cursor.skipBlank ⟨rows, taken, previous⟩).rows.isEmpty),
          ⟨Cursor.skipBlank ⟨rows, taken, previous⟩, trail'⟩) from
    fun trail => ⟨⟨rfl, rfl⟩, h trail⟩
  intro trail
  -- on the rows, with the trail one step longer for each blank row that is left
  induction rows with
  | nil => cases taken <;> exact ⟨trail, rfl⟩
  | cons row later ih =>
    cases taken with
    | succ n => cases row <;> exact ⟨trail, rfl⟩
    | zero =>
      cases row with
      | cons x tail => exact ⟨trail, rfl⟩
      | nil => exact ih (trail.step (.leave later 0 previous))

end Rows

/-! ## Statements -/

/-- Walks through statements end as the readers with the given bound, if it is large enough for the
rows that are left. -/
structure DescendsWithin (origin : Cursor) (n : Nat) : Prop where
  stmt (inside : Option SubroutineKind) (l : Line) (later : List Row)
    (hn : 3 * (later.length + 1) ≤ n) :
    EndsAs id (readStmt n inside : Walk origin Stmt) (Stmt.readStmt n inside)
      (Before (later.length + 1)) (l.under later)
  body (inside : Option SubroutineKind) (block : Block) (opened : Position) (c : Cursor)
    (htaken : c.taken = 0) (hn : 3 * c.rows.length + 1 ≤ n) :
    EndsAs id (readBody n inside block opened : Walk origin (List Stmt × BodyEnd))
      (Stmt.readBody n inside block opened) (InRow c.rows.length) c
  arm (inside : Option SubroutineKind) (opened : Position) (c : Cursor)
    (htaken : c.taken = 0) (hn : 3 * c.rows.length + 2 ≤ n) :
    EndsAs id (readArm n inside opened : Walk origin (List Stmt × Arms))
      (Stmt.readArm n inside opened) (Before c.rows.length) c
  subroutine (inside : Option SubroutineKind) (kind : SubroutineKind) (l : Line)
    (later : List Row) (hn : 3 * later.length + 2 ≤ n) :
    EndsAs id (readSubroutine n inside kind : Walk origin Stmt)
      (Stmt.readSubroutine n inside kind) (Before (later.length + 1)) (l.under later)

section Descent

variable {n : Nat} (ih : DescendsWithin origin n)

include ih

/-- A body is walked through with fuel for three calls on each row. -/
theorem DescendsWithin.readBody_succ (inside : Option SubroutineKind) (block : Block)
    (opened : Position) (c : Cursor) (htaken : c.taken = 0)
    (hn : 3 * c.rows.length + 1 ≤ n + 1) :
    EndsAs id (readBody (n + 1) inside block opened : Walk origin (List Stmt × BodyEnd))
      (Stmt.readBody (n + 1) inside block opened) (InRow c.rows.length) c := by
  rw [readBody, Stmt.readBody]
  obtain ⟨rows, _, previous⟩ := c
  obtain rfl : _ = 0 := htaken
  have hn : 3 * rows.length + 1 ≤ n + 1 := hn
  have hlength : (rows.dropWhile List.isEmpty).length ≤ rows.length :=
    (List.dropWhile_sublist _).length_le
  refine (endsAs_nextRow _).bind ?_
  rintro more _ ⟨rfl, rfl⟩
  rcases Scaffold.dropBlank_cases rows with hnil | ⟨x, tail, later, hcons⟩
  · have hskip : Cursor.skipBlank ⟨rows, 0, previous⟩ = ⟨[], 0, previous⟩ := by
      rw [Cursor.skipBlank, if_pos rfl, hnil]
    rw [hskip]
    exact endsAs_throw _
  · have hskip : Cursor.skipBlank ⟨rows, 0, previous⟩ =
        Line.under later ⟨x :: tail, 0, previous⟩ := by
      rw [Cursor.skipBlank, if_pos rfl, hcons]
      rfl
    rw [hcons, List.length_cons] at hlength
    rw [hskip]
    refine (endsAs_peekEnd block _).bind ?_
    rintro ending _ rfl
    cases ending with
    | some ending =>
      refine endsAs_advance.onLine.bind ?_
      rintro _ _ ⟨m, rfl, -⟩
      exact endsAs_pure ⟨m, later, rfl, hlength⟩
    | none =>
      -- the statement took a row at least, so the bound is large enough for the rest of the body
      refine (ih.stmt inside _ later (by omega)).bind ?_
      rintro s d ⟨hd, hrows⟩
      refine (ih.body inside block opened d hd (by omega)).bind ?_
      rintro ⟨rest, ending⟩ _ ⟨l, later', rfl, hlater⟩
      exact endsAs_pure ⟨l, later', rfl, show later'.length < rows.length by omega⟩

theorem DescendsWithin.readArm_succ (inside : Option SubroutineKind) (opened : Position)
    (c : Cursor) (htaken : c.taken = 0) (hn : 3 * c.rows.length + 2 ≤ n + 1) :
    EndsAs id (readArm (n + 1) inside opened : Walk origin (List Stmt × Arms))
      (Stmt.readArm (n + 1) inside opened) (Before c.rows.length) c := by
  rw [readArm, Stmt.readArm]
  refine (ih.body inside .branch opened c htaken (by omega)).bind ?_
  rintro ⟨body, ⟨word, place⟩⟩ _ ⟨l, later, rfl, hlater⟩
  -- the word that ended the arm says what follows
  cases word with
  | kwElseif =>
    refine (endsAs_header endsAs_readGuard).bind ?_
    rintro condition d ⟨hd, hrows⟩
    refine (ih.arm inside opened d hd (by omega)).bind ?_
    rintro ⟨next, rest⟩ e ⟨he, hrows'⟩
    exact endsAs_pure ⟨he, by omega⟩
  | kwElse =>
    refine (endsAs_finishLine later l).bind ?_
    rintro _ d ⟨hd, hrows⟩
    refine (ih.body inside .branch opened d hd (by omega)).bind ?_
    rintro ⟨final, last⟩ _ ⟨l', later', rfl, hlater'⟩
    dsimp only
    split
    · exact endsAs_throw _
    · refine (endsAs_finishLine later' l').bind ?_
      rintro _ e ⟨he, hrows'⟩
      exact endsAs_pure ⟨he, by omega⟩
  | _ =>
    refine (endsAs_finishLine later l).bind ?_
    rintro _ d ⟨hd, hrows⟩
    exact endsAs_pure ⟨hd, by omega⟩

theorem DescendsWithin.readSubroutine_succ (inside : Option SubroutineKind)
    (kind : SubroutineKind) (l : Line) (later : List Row) (hn : 3 * later.length + 2 ≤ n + 1) :
    EndsAs id (readSubroutine (n + 1) inside kind : Walk origin Stmt)
      (Stmt.readSubroutine (n + 1) inside kind) (Before (later.length + 1)) (l.under later) := by
  rw [readSubroutine, Stmt.readSubroutine]
  refine (endsAs_header (endsAs_readSubroutineHeader inside)).bind ?_
  rintro h c ⟨hc, hrows⟩
  refine (ih.body (some kind) (.subroutine kind) h.position c hc (by omega)).bind ?_
  rintro ⟨body, ending⟩ _ ⟨l', later', rfl, hlater⟩
  dsimp only
  split
  · exact endsAs_throw _
  · refine (endsAs_finishLine later' l').bind ?_
    rintro _ d ⟨hd, hrows'⟩
    exact endsAs_pure ⟨hd, by omega⟩

/-- A statement is walked through, and rows are taken for it. -/
theorem DescendsWithin.readStmt_succ (inside : Option SubroutineKind) (l : Line)
    (later : List Row) (hn : 3 * (later.length + 1) ≤ n + 1) :
    EndsAs id (readStmt (n + 1) inside : Walk origin Stmt) (Stmt.readStmt (n + 1) inside)
      (Before (later.length + 1)) (l.under later) := by
  have hassign : EndsAs id (header readAssignment : Walk origin Stmt)
      (Stmt.header Stmt.readAssignment) (Before (later.length + 1)) (l.under later) :=
    endsAs_header endsAs_readAssignment
  have hexpr : EndsAs id (.expr <$> header readExpr : Walk origin Stmt)
      (.expr <$> Stmt.header Expr.read) (Before (later.length + 1)) (l.under later) :=
    EndsAs.map (f := Stmt.expr) (endsAs_header (endsAs_readExpr later l))
  rw [readStmt, Stmt.readStmt]
  refine (endsAs_peekLexeme _).bind ?_
  rintro _ _ ⟨rfl, rfl⟩
  -- the first lexeme decides; a row that is used up, as after a failure, has none
  cases hnext : (l.under later).next? with
  | none =>
    have hfails : EndsAs (Line.under later) (failAtPrevious .incomplete : Walk origin Stmt)
        (LineReader.failAtPrevious .incomplete) (fun _ _ => False) l := endsAs_failAtPrevious _
    refine hfails.onLine.imp ?_
    rintro _ _ ⟨_, _, h⟩
    exact h.elim
  | some x =>
  obtain ⟨token, pos⟩ := x
  cases token with
  | keyword k =>
    cases k with
    | kwIf =>
      refine endsAs_advancePosition.onLine.bind ?_
      rintro pos _ ⟨m, rfl, -⟩
      refine (endsAs_header endsAs_readGuard).bind ?_
      rintro condition c ⟨hc, hrows⟩
      refine (ih.arm inside pos c hc (by omega)).bind ?_
      rintro ⟨body, rest⟩ d ⟨hd, hrows'⟩
      exact endsAs_pure ⟨hd, by omega⟩
    | kwWhile =>
      refine endsAs_advancePosition.onLine.bind ?_
      rintro pos _ ⟨m, rfl, -⟩
      refine (endsAs_header endsAs_readCondition).bind ?_
      rintro condition c ⟨hc, hrows⟩
      refine (ih.body inside .whileLoop pos c hc (by omega)).bind ?_
      rintro ⟨body, _⟩ _ ⟨l', later', rfl, hlater⟩
      refine (endsAs_finishLine later' l').bind ?_
      rintro _ d ⟨hd, hrows'⟩
      exact endsAs_pure ⟨hd, by omega⟩
    | kwDo =>
      refine endsAs_advancePosition.onLine.bind ?_
      rintro pos _ ⟨m, rfl, -⟩
      refine (endsAs_finishLine later m).bind ?_
      rintro _ c ⟨hc, hrows⟩
      refine (ih.body inside .untilLoop pos c hc (by omega)).bind ?_
      rintro ⟨body, ending⟩ _ ⟨l', later', rfl, hlater⟩
      refine (endsAs_header (endsAs_readUntil ending.position)).bind ?_
      rintro condition d ⟨hd, hrows'⟩
      exact endsAs_pure ⟨hd, by omega⟩
    | kwFor =>
      refine (endsAs_header endsAs_readForHeader).bind ?_
      rintro h c ⟨hc, hrows⟩
      refine (ih.body inside (.forLoop h.counter) h.position c hc (by omega)).bind ?_
      rintro ⟨body, _⟩ _ ⟨l', later', rfl, hlater⟩
      refine (endsAs_header (endsAs_readClosingName h.counter)).bind ?_
      rintro _ d ⟨hd, hrows'⟩
      exact endsAs_pure ⟨hd, by omega⟩
    | kwProcedure => exact ih.subroutine inside .procedure l later (by omega)
    | kwFunction => exact ih.subroutine inside .function l later (by omega)
    | kwReturn => exact endsAs_header (endsAs_readReturn inside)
    | kwConst | kwGlobal => exact hassign
    | kwNot => exact hexpr
    | _ => exact endsAs_throw _
  | name id =>
    refine (endsAs_assignFollows _).bind ?_
    rintro assigns _ rfl
    cases assigns with
    | true => exact hassign
    | false => exact hexpr
  | mark m =>
    dsimp only
    split
    · exact endsAs_throw _
    · exact hexpr
  | _ => exact hexpr

end Descent

/-- **Statements are read to an end.** -/
theorem descendsWithin (n : Nat) : DescendsWithin origin n := by
  -- on the bound: each reader calls the others with a smaller one, on fewer rows or earlier in turn
  induction n with
  | zero =>
    exact ⟨fun _ _ _ h => absurd h (by omega), fun _ _ _ _ _ h => absurd h (by omega),
      fun _ _ _ _ h => absurd h (by omega), fun _ _ _ _ h => absurd h (by omega)⟩
  | succ n ih =>
    exact ⟨ih.readStmt_succ, ih.readBody_succ, ih.readArm_succ, ih.readSubroutine_succ⟩

/-! ## Calls -/

/-- At the end of the rows there is no statement, for any bound. -/
theorem nextWithin_of_nil {c : Cursor} (h : c.skipBlank.rows = []) (bound : Nat) :
    Stmt.nextWithin bound c = .ok none c.skipBlank := by
  have hnext : RowReader.nextRow c = .ok false c.skipBlank := by simp [RowReader.nextRow, h]
  rw [Stmt.nextWithin]
  show EStateM.bind RowReader.nextRow _ c = _
  simp only [EStateM.bind, hnext]
  rfl

/-- A call finds nothing only where nothing but blank rows is left, and a statement takes a row. -/
theorem endsAs_nextWithin (bound : Nat) (c : Cursor) (hbound : 3 * c.rows.length ≤ bound) :
    EndsAs id (nextWithin bound : Walk origin (Option Stmt)) (Stmt.nextWithin bound)
      (fun found d => (found = none → c.skipBlank.rows = []) ∧
        ∀ s, found = some s → Before c.rows.length s d) c := by
  have hlength : c.skipBlank.rows.length ≤ c.rows.length := by
    rw [Cursor.skipBlank]
    split
    · exact (List.dropWhile_sublist _).length_le
    · exact Nat.le_refl _
  rw [nextWithin, Stmt.nextWithin]
  refine (endsAs_nextRow c).bind ?_
  rintro more _ ⟨rfl, rfl⟩
  generalize c.skipBlank = d at hlength ⊢
  obtain ⟨rows, taken, previous⟩ := d
  -- without blank rows there is nothing left, or a statement begins
  cases rows with
  | nil =>
    refine endsAs_pure ⟨fun _ => rfl, ?_⟩
    rintro _ ⟨⟩
  | cons row later =>
    have hlength : later.length + 1 ≤ c.rows.length := hlength
    have hstmt : EndsAs id (readStmt bound none : Walk origin Stmt) (Stmt.readStmt bound none)
        (Before (later.length + 1)) (Line.under later ⟨row, taken, previous⟩) :=
      (descendsWithin bound).stmt none _ later (by omega)
    refine EndsAs.map (f := some) (hstmt.imp fun s d hd => ⟨?_, fun s' _ => ?_⟩)
    · rintro ⟨⟩
    · exact ⟨hd.1, Nat.lt_of_lt_of_le hd.2 hlength⟩

section Program

variable {t t' u : Standing origin} {bound n : Nat}

theorem programWithin_of_nothing (h : nextWithin bound t = some (.ok none, t')) :
    programWithin bound (n + 1) t = some (⟨[], none⟩, t') := by
  rw [programWithin]
  simp only [bind, StateT.bind, ExceptT.run, h, Option.bind_some]
  rfl

/-- A program ends where a statement has a fault. -/
theorem programWithin_of_fault {fault : Fault}
    (h : nextWithin bound t = some (.error fault, t')) :
    programWithin bound (n + 1) t = some (⟨[], some fault⟩, t') := by
  rw [programWithin]
  simp only [bind, StateT.bind, ExceptT.run, h, Option.bind_some]
  rfl

/-- A program goes on after a statement. -/
theorem programWithin_of_statement {s : Stmt} {rest : Program}
    (h : nextWithin bound t = some (.ok (some s), t'))
    (hrest : programWithin bound n t' = some (rest, u)) :
    programWithin bound (n + 1) t = some (⟨s :: rest.statements, rest.fault⟩, u) := by
  rw [programWithin]
  simp only [bind, StateT.bind, ExceptT.run, h, hrest, Option.bind_some]
  rfl

end Program

/-- All statements are read to an end, and each of them takes a row. -/
theorem programWithin_readFrom (bound n : Nat) : ∀ (c : Cursor) (trail : Trail origin c),
    c.rows.length < n → 3 * c.rows.length ≤ bound →
      (∃ t, programWithin bound n ⟨c, trail⟩ = some (Program.readFrom bound n c, t)) ∧
        (Program.readFrom bound n c).statements.length ≤ c.rows.length := by
  induction n with
  | zero => exact fun _ _ h => absurd h (Nat.not_lt_zero _)
  | succ n ih =>
    intro c trail hn hbound
    have hcall := endsAs_nextWithin bound c hbound trail
    rw [Program.readFrom]
    cases hread : Stmt.nextWithin bound c with
    | ok found d =>
      rw [hread] at hcall
      obtain ⟨⟨-, hstmt⟩, trail', hwalk⟩ := hcall
      cases found with
      | none => exact ⟨⟨_, programWithin_of_nothing hwalk⟩, Nat.zero_le _⟩
      | some s =>
        obtain ⟨-, hrows⟩ := hstmt s rfl
        -- a statement takes a row, so the rest has fewer rows than the fuel
        obtain ⟨⟨u, hrest⟩, hlength⟩ := ih d trail' (by omega) (by omega)
        refine ⟨⟨u, programWithin_of_statement hwalk hrest⟩, ?_⟩
        simp only [List.length_cons]
        omega
    | error fault d =>
      rw [hread] at hcall
      obtain ⟨trail', hwalk⟩ := hcall
      exact ⟨⟨_, programWithin_of_fault hwalk⟩, Nat.zero_le _⟩

end Walk

namespace Parser

/-- What a call gives: a statement, nothing, or a fault. -/
def result (p : Parser) : Except Fault (Option Stmt) :=
  match next p with
  | .ok found _ => .ok found
  | .error fault _ => .error fault

/-- What the next call does in the rows. -/
structure Advances (rows : List Row) (p : Parser) : Prop where
  /-- The parser stands at a place in the rows, and what is left there is unread. -/
  stands : p.cursor.Within rows
  /-- The call comes to an end, and no reader meets its bound. The places on its way are all in the
  rows, and each is the next one after the one before. -/
  ends : ∃ trail : Trail p.cursor p.after.cursor,
    Walk.next (.start p.cursor) = some (p.result, ⟨p.after.cursor, trail⟩) ∧
      (∀ c ∈ trail.cursors, c.Within rows) ∧ (trail.places rows).IsChain (Place.Next rows)
  /-- The call does not lead back. -/
  forward : p.cursor.place rows ≤ p.after.cursor.place rows
  /-- A statement ends with its row, and the call leads to the beginning of a later one. -/
  statement : ∀ s, p.result = .ok (some s) → (p.after.cursor.place rows).index = 0 ∧
    (p.cursor.place rows).row < (p.after.cursor.place rows).row
  /-- There is nothing if and only if all rows are blank from the row of the place on. -/
  nothing : p.result = .ok none ↔ ∀ row ∈ rows.drop (p.cursor.place rows).row, row = []
  /-- Calls until there is nothing or a fault come to an end, with no more statements than rows. -/
  all : ∃ program t, Walk.program (.start p.cursor) = some (program, t) ∧
    program.statements.length ≤ rows.length - (p.cursor.place rows).row

/-- A call without a mark ends as a walk does. It gives nothing if and only if nothing but blank
rows is left, and after a statement there are fewer rows than before. -/
theorem call_ends (c : Cursor) :
    (∃ trail : Trail c (after ⟨c, none⟩).cursor,
      Walk.next (.start c) = some (result ⟨c, none⟩, ⟨(after ⟨c, none⟩).cursor, trail⟩)) ∧
    (result ⟨c, none⟩ = .ok none ↔ c.skipBlank.rows = []) ∧
    ∀ s, result ⟨c, none⟩ = .ok (some s) →
      Walk.Before c.rows.length s (after ⟨c, none⟩).cursor := by
  have hcall := Walk.endsAs_nextWithin (Stmt.readBound c.rows.length) c
    (by simp only [Stmt.readBound]; omega) .start
  have hbound : Stmt.nextWithin (Stmt.readBound c.rows.length) c = Stmt.next c := rfl
  have hblank : c.skipBlank.rows = [] → Stmt.next c = .ok none c.skipBlank := fun h =>
    Walk.nextWithin_of_nil h _
  rw [hbound] at hcall
  rw [result, after, next_eq, onRows]
  dsimp only
  -- the walk stands where the call left off, whether it gave a statement or failed
  cases hread : Stmt.next c with
  | ok found d =>
    rw [hread] at hcall
    obtain ⟨⟨hnothing, hstmt⟩, hwalk⟩ := hcall
    refine ⟨hwalk, ⟨fun h => hnothing (Except.ok.inj h), fun h => ?_⟩,
      fun s h => hstmt s (Except.ok.inj h)⟩
    obtain ⟨rfl, -⟩ := EStateM.Result.ok.inj (hread.symm.trans (hblank h))
    rfl
  | error fault d =>
    rw [hread] at hcall
    refine ⟨hcall, ⟨fun h => ?_, fun h => ?_⟩, fun s h => ?_⟩
    · cases h
    · cases hread.symm.trans (hblank h)
    · cases h

/-- A parser that stands at a place in the rows moves on in them. -/
theorem advances {rows : List Row} {p : Parser} (hplace : p.cursor.Within rows)
    (hinside : p.inside = none) : Advances rows p := by
  obtain ⟨c, inside⟩ := p
  obtain rfl : inside = none := hinside
  obtain ⟨⟨trail, hwalk⟩, hnothing, hstmt⟩ := call_ends c
  obtain ⟨⟨t, hprogram⟩, hcount⟩ := Walk.programWithin_readFrom (Stmt.readBound c.rows.length)
    (c.rows.length + 1) c .start (Nat.lt_succ_self _) (by simp only [Stmt.readBound]; omega)
  have hlength : c.rows.length ≤ rows.length := hplace.length_le
  exact {
    stands := hplace
    ends := ⟨trail, hwalk, trail.within hplace, trail.isChain_places hplace⟩
    forward := trail.place_le hplace
    statement := fun s hs => by
      obtain ⟨htaken, hrows⟩ := hstmt s hs
      refine ⟨htaken, ?_⟩
      simp only [Cursor.place]
      omega
    nothing := hnothing.trans (Cursor.skipBlank_eq_nil_iff hplace)
    all := ⟨_, t, hprogram, by simp only [Cursor.place]; omega⟩ }

/-- Calls never lead out of the rows. -/
theorem advances_reached (rows : List Row) (calls : Nat) : Advances rows (reached rows calls) := by
  induction calls with
  | zero => exact advances (Cursor.within_start rows) rfl
  | succ calls ih =>
    obtain ⟨trail, -, -, -⟩ := ih.ends
    exact advances (trail.within_last ih.stands) (inside_reached rows (calls + 1))

/-- **Every call makes progress, and no lexeme is left out.** After any number of calls on the
rows, of which some may have failed, the next call comes to an end and moves on from place to place
(`Advances`). All statements of the rows are read to an end, and there are no more of them than
rows. -/
theorem calls_progress (rows : List Row) :
    (∀ calls, Advances rows (reached rows calls)) ∧
      ∃ t, Walk.program (.start (Cursor.start rows)) = some (Program.ofRows rows, t) ∧
        (Program.ofRows rows).statements.length ≤ rows.length := by
  refine ⟨advances_reached rows, ?_⟩
  obtain ⟨⟨t, hprogram⟩, hcount⟩ := Walk.programWithin_readFrom (Stmt.readBound rows.length)
    (rows.length + 1) (Cursor.start rows) .start (Nat.lt_succ_self _)
    (by simp only [Stmt.readBound, Cursor.start]; omega)
  exact ⟨t, hprogram, hcount⟩

/-- A call that fails need not move. At the end of a row that is used up all further calls fail. -/
example :
    let rows : List Row := [[⟨.name "x", ⟨0, 0⟩⟩, ⟨.mark .assign, ⟨0, 2⟩⟩]]
    (reached rows 1).cursor.place rows = ⟨0, 2⟩ ∧
      (reached rows 2).cursor.place rows = ⟨0, 2⟩ := by
  decide +kernel

end Parser

end Primer
