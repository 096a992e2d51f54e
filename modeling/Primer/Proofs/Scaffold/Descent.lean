import Primer.Proofs.Scaffold

/-!
# The descent assembles the same program

The parser reads a block by recursion and the scaffold keeps it as a frame. The two agree on every
list of rows (`Scaffold.ofRows_eq_run`): `Descends` says, for each function of the descent, that a
result takes the scaffold past the rows that were read, and that a fault is the scaffold's fault.
Each function calls the others with less fuel, so all four facts are proved together by induction
on the fuel, which the number of rows bounds.
-/

set_option autoImplicit false

namespace Primer

/-! ## Readers that start at a lexeme -/

namespace LineReader

variable {α β : Type}

/-- The reader does not depend on the lexeme before a row that it starts to read. -/
def Fresh (reader : LineReader α) : Prop :=
  ∀ (x : Lexeme) (tail : Row) (taken : Nat) (p q : Position),
    reader ⟨x :: tail, taken, p⟩ = reader ⟨x :: tail, taken, q⟩

/-- A reader that starts without a token before it may be followed by any. -/
theorem Fresh.bind {reader : LineReader α} (h : reader.Fresh) (next : α → LineReader β) :
    Fresh (reader >>= next) := by
  intro x tail taken p q
  show EStateM.bind reader next _ = EStateM.bind reader next _
  simp only [EStateM.bind, h x tail taken p q]

/-- Reading a whole row maps over a change of the result. -/
theorem whole_bind_pure (reader : LineReader α) (f : α → β) (l : Line) :
    whole (do let a ← reader; pure (f a)) l = (reader.whole l).map f := by
  show whole (EStateM.bind reader fun a => EStateM.pure (f a)) l = _
  simp only [whole, EStateM.bind, EStateM.pure]
  cases reader l with
  | ok a after =>
    obtain ⟨rest, taken, previous⟩ := after
    cases rest <;> rfl
  | error fault after => rfl

/-- A first lexeme that is always taken can be taken off the row. -/
theorem whole_advancePosition (next : Position → LineReader α) (x : Lexeme) (tail : Row)
    (taken : Nat) (p : Position) :
    whole (advancePosition >>= next) ⟨x :: tail, taken, p⟩ =
      whole (next x.position) ⟨tail, taken + 1, x.position⟩ := rfl

end LineReader

namespace Expr

open LineReader

/-- A factor takes a token first, so the one before does not count. -/
theorem fresh_readFactor (n : Nat) : (readFactor (n + 1)).Fresh := by
  intro x tail taken p q
  rw [readFactor]
  rfl

theorem fresh_readLevel {n : Nat} {level : Level} (h : (readOperand n level).Fresh) :
    (readLevel (n + 1) level).Fresh := by
  rw [readLevel]
  exact h.bind _

theorem fresh_readNegation {n : Nat} (h : (readLevel n .comparison).Fresh) :
    (readNegation (n + 1)).Fresh := by
  intro x tail taken p q
  rw [readNegation]
  show EStateM.bind _ _ _ = EStateM.bind _ _ _
  simp only [EStateM.bind, check]
  split
  · rfl
  · exact h x tail taken p q

/-- Reading an expression does not depend on the lexeme before it. -/
theorem fresh_read : Expr.read.Fresh := by
  intro x tail taken p q
  have hbound : readBound (x :: tail).length = 12 * tail.length + 12 + 12 := by
    simp only [readBound, List.length_cons]
    omega
  show readLevel (readBound (x :: tail).length) .logic _ =
    readLevel (readBound (x :: tail).length) .logic _
  rw [hbound]
  generalize 12 * tail.length + 12 = n
  -- each level reads an operand first, down to the factor, which takes a token
  have hpower : (readLevel (n + 3) .power).Fresh :=
    fresh_readLevel (by rw [readOperand]; exact fresh_readFactor n)
  have hproduct : (readLevel (n + 5) .product).Fresh :=
    fresh_readLevel (by rw [readOperand]; exact hpower)
  have hsum : (readLevel (n + 7) .sum).Fresh :=
    fresh_readLevel (by rw [readOperand]; exact hproduct)
  have hcomparison : (readLevel (n + 9) .comparison).Fresh :=
    fresh_readLevel (by rw [readOperand]; exact hsum)
  have hlogic : (readLevel (n + 12) .logic).Fresh :=
    fresh_readLevel (by rw [readOperand]; exact fresh_readNegation hcomparison)
  exact hlogic x tail taken p q

end Expr

namespace Stmt

open LineReader

theorem fresh_readAssignment : readAssignment.Fresh := by
  intro x tail taken p q
  obtain ⟨token, pos⟩ := x
  -- a qualifier or the name is taken first, whatever it is
  cases token with
  | keyword k => cases k <;> rfl
  | _ => rfl

end Stmt

/-! ## How a reading of rows ends -/

namespace RowReader

open Stmt

variable {α β : Type}

/-- How a reading ends: a result and the cursor after it satisfy the one condition, or a fault the
other. -/
def Ends (result : EStateM.Result Fault Cursor α) (good : α → Cursor → Prop)
    (bad : Fault → Prop) : Prop :=
  match result with
  | .ok a c => good a c
  | .error fault _ => bad fault

/-- Two readers in a row end as the second does, or fail as the first does. -/
theorem Ends.bind {x : RowReader α} {next : α → RowReader β} {c : Cursor}
    {m : α → Cursor → Prop} {good : β → Cursor → Prop} {bad bad' : Fault → Prop}
    (hx : Ends (x c) m bad') (hbad : ∀ fault, bad' fault → bad fault)
    (hnext : ∀ a d, m a d → Ends (next a d) good bad) : Ends ((x >>= next) c) good bad := by
  show Ends (EStateM.bind x next c) good bad
  simp only [EStateM.bind]
  cases h : x c with
  | ok a d =>
    rw [h] at hx
    exact hnext a d hx
  | error fault d =>
    rw [h] at hx
    exact hbad fault hx

/-- After a reader that is known to succeed, only the next one counts. -/
theorem Ends.bind_ok {x : RowReader α} {next : α → RowReader β} {c d : Cursor} {a : α}
    {good : β → Cursor → Prop} {bad : Fault → Prop} (hx : x c = .ok a d)
    (hnext : Ends (next a d) good bad) : Ends ((x >>= next) c) good bad := by
  show Ends (EStateM.bind x next c) good bad
  simp only [EStateM.bind, hx]
  exact hnext

theorem Ends.imp {result : EStateM.Result Fault Cursor α} {good good' : α → Cursor → Prop}
    {bad bad' : Fault → Prop} (h : Ends result good bad) (hgood : ∀ a c, good a c → good' a c)
    (hbad : ∀ fault, bad fault → bad' fault) : Ends result good' bad' := by
  cases result with
  | ok a c => exact hgood a c h
  | error fault c => exact hbad fault h

/-- A header reads the rest of its row and moves on to the next row. -/
theorem header_ends (reader : LineReader α) (row : Row) (later : List Row) (taken : Nat)
    (p : Position) :
    Ends (header reader ⟨row :: later, taken, p⟩)
      (fun a c => reader.whole ⟨row, taken, p⟩ = .ok a ∧ ∃ q, c = ⟨later, 0, q⟩)
      (fun fault => reader.whole ⟨row, taken, p⟩ = .error fault) := by
  show Ends (EStateM.bind (onLine reader) _ _) _ _
  simp only [EStateM.bind, onLine, LineReader.whole]
  cases reader ⟨row, taken, p⟩ with
  | ok a after =>
    obtain ⟨rest, taken', previous⟩ := after
    cases rest with
    | nil => exact ⟨rfl, previous, rfl⟩
    | cons x xs => exact rfl
  | error fault after => exact rfl

/-- Ending a row is a header that reads nothing. -/
theorem finishLine_eq_header (c : Cursor) : finishLine c = header (pure ()) c := by
  obtain ⟨rows, taken, p⟩ := c
  cases rows with
  | nil => rfl
  | cons row later => cases row <;> rfl

theorem Ends.map {x : RowReader α} {f : α → β} {c : Cursor} {good : β → Cursor → Prop}
    {bad : Fault → Prop} (h : Ends (x c) (fun a d => good (f a) d) bad) :
    Ends ((f <$> x) c) good bad := by
  show Ends (EStateM.map f x c) good bad
  simp only [EStateM.map]
  cases hx : x c with
  | ok a d =>
    rw [hx] at h
    exact h
  | error fault d =>
    rw [hx] at h
    exact h

end RowReader

/-! ## The descent -/

namespace Scaffold

open RowReader

/-- The row that starts with the lexeme ends no body of the scaffold. -/
def Opens (s : Scaffold) (x : Lexeme) : Prop := ∀ f ∈ s.frames.head?, f.ending? x = none

/-- A statement was read: the scaffold gets past its rows by adding it. -/
def Takes (s : Scaffold) (rows : List Row) (a : Stmt) (c : Cursor) : Prop :=
  c.taken = 0 ∧ c.rows.length < rows.length ∧ s.run rows = (s.put (.finished a)).run c.rows

/-- The scaffold fails on the rows. -/
def Fails (s : Scaffold) (rows : List Row) (fault : Fault) : Prop :=
  s.run rows = ⟨s.finished, some fault⟩

/-- A body was read up to a row that ends it, of which the first word was taken. -/
def Fills (done : List Stmt) (f : Frame) (outer : List Frame) (rows : List Row)
    (result : List Stmt × BodyEnd) (c : Cursor) : Prop :=
  ∃ (tail : Row) (later : List Row),
    c = ⟨tail :: later, 1, result.2.position⟩ ∧ later.length < rows.length ∧
      f.ending? ⟨.keyword result.2.word, result.2.position⟩ = some result.2 ∧
      run ⟨done, f :: outer⟩ rows =
        run ⟨done, { f with body := f.body ++ result.1 } :: outer⟩
          ((⟨.keyword result.2.word, result.2.position⟩ :: tail) :: later)

open Stmt in
/-- The functions of the descent follow the scaffold, given enough fuel. -/
structure Descends (n : Nat) : Prop where
  stmt : ∀ (s : Scaffold) (x : Lexeme) (tail : Row) (later : List Row) (p : Position),
    3 * (later.length + 1) ≤ n → s.Opens x →
      Ends (readStmt n s.inside ⟨(x :: tail) :: later, 0, p⟩) (s.Takes ((x :: tail) :: later))
        (s.Fails ((x :: tail) :: later))
  body : ∀ (done : List Stmt) (f : Frame) (outer : List Frame) (rows : List Row) (p : Position),
    3 * rows.length + 1 ≤ n →
      Ends (readBody n (inside ⟨done, f :: outer⟩) f.block f.opened ⟨rows, 0, p⟩)
        (Fills done f outer rows) (Fails ⟨done, f :: outer⟩ rows)
  arm : ∀ (done : List Stmt) (earlier : List (Expr × List Stmt)) (condition : Expr)
    (opened : Position) (outer : List Frame) (rows : List Row) (p : Position),
    3 * rows.length + 2 ≤ n →
      Ends (readArm n (inside ⟨done, outer⟩) opened ⟨rows, 0, p⟩)
        (fun result c => c.taken = 0 ∧ c.rows.length < rows.length ∧
          run ⟨done, ⟨.arm earlier condition, opened, []⟩ :: outer⟩ rows =
            (put ⟨done, outer⟩
              (.finished (conditional earlier condition result.1 result.2 opened))).run c.rows)
        (Fails ⟨done, ⟨.arm earlier condition, opened, []⟩ :: outer⟩ rows)
  subroutine : ∀ (s : Scaffold) (kind : SubroutineKind) (pos : Position) (tail : Row)
    (later : List Row) (p : Position), 3 * later.length + 2 ≤ n →
      s.Opens ⟨.keyword kind.opener, pos⟩ →
      Ends (readSubroutine n s.inside kind
          ⟨(⟨.keyword kind.opener, pos⟩ :: tail) :: later, 0, p⟩)
        (s.Takes ((⟨.keyword kind.opener, pos⟩ :: tail) :: later))
        (s.Fails ((⟨.keyword kind.opener, pos⟩ :: tail) :: later))

section Rows

variable {s : Scaffold} {x : Lexeme} {tail : Row} {f : Frame} {ending : BodyEnd} {p : Position}

/-- A row that opens a statement takes the text one step further. -/
theorem run_start {t : Scaffold} (hopens : s.Opens x) (h : s.start x tail = .ok t)
    (later : List Row) : s.run ((x :: tail) :: later) = t.run later :=
  run_cons_ok ((step_of_opens hopens tail).trans h) later

theorem fails_start {fault : Fault} (hopens : s.Opens x) (h : s.start x tail = .error fault)
    (later : List Row) : s.Fails ((x :: tail) :: later) fault :=
  run_cons_error ((step_of_opens hopens tail).trans h) later

/-- A row that ends the open block puts what it closes. -/
theorem run_close {piece : Piece} (hend : f.ending? x = some ending)
    (h : (f.close ending).whole ⟨tail, 1, x.position⟩ = .ok piece) (done : List Stmt)
    (outer : List Frame) (later : List Row) :
    run ⟨done, f :: outer⟩ ((x :: tail) :: later) = (put ⟨done, outer⟩ piece).run later := by
  refine run_cons_ok ?_ later
  rw [step_of_ends hend, h]
  rfl

theorem fails_close {fault : Fault} (hend : f.ending? x = some ending)
    (h : (f.close ending).whole ⟨tail, 1, x.position⟩ = .error fault) (done : List Stmt)
    (outer : List Frame) (later : List Row) :
    Fails ⟨done, f :: outer⟩ ((x :: tail) :: later) fault := by
  refine run_cons_error ?_ later
  rw [step_of_ends hend, h]
  rfl

end Rows

open Stmt

variable {s : Scaffold} {x : Lexeme} {tail : Row}

/-- A reader of the first row gives its piece to the scaffold. -/
theorem row_ends {α : Type} {reader : LineReader α} {g : α → Piece} {row : Row} {taken : Nat}
    {p : Position} (hopens : s.Opens x)
    (hstart : s.start x tail = ((reader.whole ⟨row, taken, p⟩).map g).map s.put)
    (later : List Row) :
    Ends (header reader ⟨row :: later, taken, p⟩)
      (fun a c => (∃ q, c = ⟨later, 0, q⟩) ∧
        s.run ((x :: tail) :: later) = (s.put (g a)).run later)
      (s.Fails ((x :: tail) :: later)) := by
  refine (header_ends reader row later taken p).imp ?_ ?_
  · rintro a c ⟨hread, hc⟩
    rw [hread] at hstart
    exact ⟨hc, run_start hopens hstart later⟩
  · intro fault hread
    rw [hread] at hstart
    exact fails_start hopens hstart later

/-- A first row is read the same whatever lexeme stood before it. -/
theorem start_eq {α : Type} {reader : LineReader α} {g : α → Piece} (hfresh : reader.Fresh)
    (hopening : Piece.opening s.inside (x :: tail) = do let a ← reader; pure (g a))
    (p : Position) :
    s.start x tail = ((reader.whole ⟨x :: tail, 0, p⟩).map g).map s.put := by
  -- the scaffold starts a row with its own position, the descent with that of the row before
  have hwhole : reader.whole ⟨x :: tail, 0, x.position⟩ = reader.whole ⟨x :: tail, 0, p⟩ := by
    simp only [LineReader.whole, hfresh x tail 0 x.position p]
  rw [start, hopening, LineReader.whole_bind_pure, hwhole]

/-- The first word of a block's header stands before the rest of the header. -/
theorem start_eq_rest {α : Type} {reader : LineReader α} {g : Position → α → Piece}
    (hopening : Piece.opening s.inside (x :: tail) = do
      let pos ← LineReader.advancePosition
      let a ← reader
      pure (g pos a)) :
    s.start x tail = ((reader.whole ⟨tail, 1, x.position⟩).map (g x.position)).map s.put := by
  rw [start, hopening, LineReader.whole_advancePosition, LineReader.whole_bind_pure]

/-- A statement that fills its row. -/
theorem simple_ends {α : Type} {reader : LineReader α} {g : α → Stmt} (hopens : s.Opens x)
    (hfresh : reader.Fresh)
    (hopening : Piece.opening s.inside (x :: tail) = do let a ← reader; pure (.finished (g a)))
    (later : List Row) (p : Position) :
    Ends (header reader ⟨(x :: tail) :: later, 0, p⟩)
      (fun a c => s.Takes ((x :: tail) :: later) (g a) c) (s.Fails ((x :: tail) :: later)) := by
  refine (row_ends hopens (start_eq hfresh hopening p) later).imp ?_ fun _ h => h
  rintro a _ ⟨⟨q, rfl⟩, hrun⟩
  exact ⟨rfl, Nat.lt_succ_self later.length, hrun⟩

/-- The end of a body is what the scaffold takes for one. -/
theorem peekEnd_eq (f : Frame) (x : Lexeme) (tail : Row) (later : List Row) (taken : Nat)
    (p : Position) :
    peekEnd f.block ⟨(x :: tail) :: later, taken, p⟩ =
      .ok (f.ending? x) ⟨(x :: tail) :: later, taken, p⟩ := by
  obtain ⟨token, pos⟩ := x
  cases token <;> rfl

/-- A word ends a block only if it is one of its own. -/
theorem ending?_eq_some {f : Frame} {x : Lexeme} {ending : BodyEnd}
    (h : f.ending? x = some ending) :
    x = ⟨.keyword ending.word, ending.position⟩ ∧ ending.word ∈ f.block.terminators := by
  obtain ⟨token, pos⟩ := x
  cases token with
  | keyword k =>
    simp only [Frame.ending?] at h
    split at h
    · next hmem =>
      obtain rfl := Option.some.inj h
      exact ⟨rfl, by simpa using hmem⟩
    · exact absurd h (by simp)
  | _ => exact absurd h (by simp [Frame.ending?])

/-- Rows without the blank ones at the front start with a lexeme, if any are left. -/
theorem dropBlank_cases (rows : List Row) :
    rows.dropWhile List.isEmpty = [] ∨
      ∃ x tail later, rows.dropWhile List.isEmpty = (x :: tail) :: later := by
  induction rows with
  | nil => exact Or.inl rfl
  | cons row rows ih =>
    cases row with
    | nil => exact ih
    | cons x tail => exact Or.inr ⟨x, tail, rows, rfl⟩

/-- Without a row that has tokens, there is no next row. -/
theorem nextRow_of_nil {rows : List Row} (h : rows.dropWhile List.isEmpty = []) (p : Position) :
    nextRow ⟨rows, 0, p⟩ = .ok false ⟨[], 0, p⟩ := by
  simp [nextRow, Cursor.skipBlank, h]

theorem nextRow_of_cons {rows later : List Row} {row : Row}
    (h : rows.dropWhile List.isEmpty = row :: later) (p : Position) :
    nextRow ⟨rows, 0, p⟩ = .ok true ⟨row :: later, 0, p⟩ := by
  simp [nextRow, Cursor.skipBlank, h]

/-- A body that is read fills the open block, or its fault is that of the text. -/
theorem body_ends {n : Nat} (ih : Descends n) (done : List Stmt) (f : Frame)
    (outer : List Frame) (rows : List Row) (p : Position) (hn : 3 * rows.length + 1 ≤ n + 1) :
    Ends (readBody (n + 1) (inside ⟨done, f :: outer⟩) f.block f.opened ⟨rows, 0, p⟩)
      (Fills done f outer rows) (Fails ⟨done, f :: outer⟩ rows) := by
  have hlength : (rows.dropWhile List.isEmpty).length ≤ rows.length :=
    (List.dropWhile_sublist _).length_le
  have hrun := run_dropBlank ⟨done, f :: outer⟩ rows
  rw [readBody]
  rcases dropBlank_cases rows with hnil | ⟨x, tail, later, hcons⟩
  · -- the input ends in the block
    refine Ends.bind_ok (nextRow_of_nil hnil p) ?_
    show Fails _ _ f.unclosed
    rw [Fails, ← hrun, hnil]
    rfl
  · refine Ends.bind_ok (nextRow_of_cons hcons p) ?_
    rw [hcons] at hlength hrun
    have hlater : later.length < rows.length := hlength
    refine Ends.bind_ok (peekEnd_eq f x tail later 0 p) ?_
    cases hend : f.ending? x with
    | some ending =>
      -- the body ends here, with nothing more in it
      obtain ⟨rfl, -⟩ := ending?_eq_some hend
      refine ⟨tail, later, rfl, hlater, hend, ?_⟩
      simp only [← hrun, List.append_nil]
    | none =>
      have hopens : Opens ⟨done, f :: outer⟩ x := by
        intro g hg
        obtain rfl : f = g := by simpa using hg
        exact hend
      -- the row starts a statement, and the rest of the body goes on after it
      refine Ends.bind (ih.stmt _ x tail later p (by omega) hopens)
        (fun _ h => hrun.symm.trans h) ?_
      rintro a ⟨rest, taken, q⟩ ⟨rfl, hrest, hput⟩
      simp only [List.length_cons] at hrest
      rw [hrun] at hput
      refine Ends.bind (ih.body done (f.push a) outer rest q (by omega))
        (fun _ h => hput.trans h) ?_
      rintro ⟨stmts, ending⟩ c ⟨tail', later', rfl, hless, hend', hrun'⟩
      refine ⟨tail', later', rfl, by omega, hend', ?_⟩
      refine (hput.trans hrun').trans ?_
      simp only [Frame.push, List.append_assoc, List.singleton_append]

/-! ## Blocks -/

/-- The rest of a row that ends a body gives its piece to the scaffold. -/
theorem close_ends {α : Type} {reader : LineReader α} {g : α → Piece} {f : Frame}
    {ending : BodyEnd} (hend : f.ending? ⟨.keyword ending.word, ending.position⟩ = some ending)
    (hclose : f.close ending = do let a ← reader; pure (g a)) (done : List Stmt)
    (outer : List Frame) (tail : Row) (later : List Row) :
    Ends (header reader ⟨tail :: later, 1, ending.position⟩)
      (fun a c => (∃ q, c = ⟨later, 0, q⟩) ∧
        run ⟨done, f :: outer⟩ ((⟨.keyword ending.word, ending.position⟩ :: tail) :: later) =
          (put ⟨done, outer⟩ (g a)).run later)
      (Fails ⟨done, f :: outer⟩
        ((⟨.keyword ending.word, ending.position⟩ :: tail) :: later)) := by
  have hwhole : (f.close ending).whole ⟨tail, 1, ending.position⟩ =
      (reader.whole ⟨tail, 1, ending.position⟩).map g := by
    rw [hclose, LineReader.whole_bind_pure]
  refine (header_ends reader tail later 1 ending.position).imp ?_ ?_
  · rintro a c ⟨hread, hc⟩
    rw [hread] at hwhole
    exact ⟨hc, run_close hend hwhole done outer later⟩
  · intro fault hread
    rw [hread] at hwhole
    exact fails_close hend hwhole done outer later

/-- A closing row without further words ends its block. -/
theorem finish_ends {f : Frame} {ending : BodyEnd} {piece : Piece}
    (hend : f.ending? ⟨.keyword ending.word, ending.position⟩ = some ending)
    (hclose : f.close ending = pure piece) (done : List Stmt) (outer : List Frame) (tail : Row)
    (later : List Row) :
    Ends (finishLine ⟨tail :: later, 1, ending.position⟩)
      (fun _ c => (∃ q, c = ⟨later, 0, q⟩) ∧
        run ⟨done, f :: outer⟩ ((⟨.keyword ending.word, ending.position⟩ :: tail) :: later) =
          (put ⟨done, outer⟩ piece).run later)
      (Fails ⟨done, f :: outer⟩
        ((⟨.keyword ending.word, ending.position⟩ :: tail) :: later)) := by
  rw [finishLine_eq_header]
  exact close_ends (g := fun _ => piece) hend (hclose.trans rfl) done outer tail later

/-- A word that cannot close its block is a fault. -/
theorem throw_ends {f : Frame} {ending : BodyEnd} {fault : Fault}
    (hclose : f.close ending = throw fault)
    (hend : f.ending? ⟨.keyword ending.word, ending.position⟩ = some ending) (done : List Stmt)
    (outer : List Frame) (tail : Row) (later : List Row) :
    Fails ⟨done, f :: outer⟩ ((⟨.keyword ending.word, ending.position⟩ :: tail) :: later)
      fault := by
  refine fails_close hend ?_ done outer later
  rw [hclose]
  rfl

/-- An arm may be counted among those before or among those after. -/
theorem conditional_append (earlier : List (Expr × List Stmt)) (c d : Expr)
    (body next : List Stmt) (rest : Arms) (pos : Position) :
    conditional (earlier ++ [(c, body)]) d next rest pos =
      conditional earlier c body (.elseif d next rest) pos := by
  have hchain : ∀ (l : List (Expr × List Stmt)) (last : Arms),
      Arms.chain (l ++ [(c, body)]) last = Arms.chain l (.elseif c body last) := by
    intro l last
    induction l with
    | nil => rfl
    | cons a l ih => simp only [List.cons_append, Arms.chain, ih]
  cases earlier with
  | nil => rfl
  | cons a l => simp only [List.cons_append, conditional, hchain]

/-- An arm that is read is put with those before it, or its fault is that of the text. -/
theorem arm_ends {n : Nat} (ih : Descends n) (done : List Stmt)
    (earlier : List (Expr × List Stmt)) (condition : Expr) (opened : Position)
    (outer : List Frame) (rows : List Row) (p : Position) (hn : 3 * rows.length + 2 ≤ n + 1) :
    Ends (readArm (n + 1) (inside ⟨done, outer⟩) opened ⟨rows, 0, p⟩)
      (fun result c => c.taken = 0 ∧ c.rows.length < rows.length ∧
        run ⟨done, ⟨.arm earlier condition, opened, []⟩ :: outer⟩ rows =
          (put ⟨done, outer⟩
            (.finished (conditional earlier condition result.1 result.2 opened))).run c.rows)
      (Fails ⟨done, ⟨.arm earlier condition, opened, []⟩ :: outer⟩ rows) := by
  rw [readArm]
  refine Ends.bind (ih.body done ⟨.arm earlier condition, opened, []⟩ outer rows p (by omega))
    (fun _ h => h) ?_
  rintro ⟨body, ⟨word, pos⟩⟩ c ⟨tail, later, rfl, hlater, hend, hrun⟩
  simp only [List.nil_append] at hrun
  have hword : word = .kwElseif ∨ word = .kwElse ∨ word = .kwEndif := by
    simpa [Frame.block, Heading.block, Block.terminators] using (ending?_eq_some hend).2
  rcases hword with rfl | rfl | rfl
  · -- a further condition: the arm that was read joins the earlier ones
    refine Ends.bind (close_ends (f := ⟨.arm earlier condition, opened, body⟩) hend rfl done outer
      tail later) (fun _ h => hrun.trans h) ?_
    rintro d _ ⟨⟨q, rfl⟩, hput⟩
    refine Ends.bind (ih.arm done (earlier ++ [(condition, body)]) d opened outer later q
      (by omega)) (fun _ h => (hrun.trans hput).trans h) ?_
    rintro ⟨next, rest⟩ c ⟨htaken, hrows, hnext⟩
    refine ⟨htaken, by omega, ?_⟩
    rw [← conditional_append]
    exact (hrun.trans hput).trans hnext
  · -- the final alternative, which only the closing word may end
    refine Ends.bind (finish_ends (f := ⟨.arm earlier condition, opened, body⟩) hend rfl done
      outer tail later) (fun _ h => hrun.trans h) ?_
    rintro _ _ ⟨⟨q, rfl⟩, hput⟩
    refine Ends.bind (ih.body done ⟨.otherwise earlier condition body, opened, []⟩ outer later q
      (by omega)) (fun _ h => (hrun.trans hput).trans h) ?_
    rintro ⟨final, ⟨last, pos'⟩⟩ _ ⟨tail', later', rfl, hlater', hend', hrun'⟩
    simp only [List.nil_append] at hrun'
    have hall := (hrun.trans hput).trans hrun'
    by_cases hlast : last = .kwEndif
    · subst hlast
      refine Ends.bind (finish_ends (f := ⟨.otherwise earlier condition body, opened, final⟩)
        hend' rfl done outer tail' later') (fun _ h => hall.trans h) ?_
      rintro _ _ ⟨⟨q', rfl⟩, hput'⟩
      exact ⟨rfl, Nat.lt_trans hlater' hlater, hall.trans hput'⟩
    · have hclose : Frame.close ⟨.otherwise earlier condition body, opened, final⟩ ⟨last, pos'⟩ =
          throw ⟨.afterElse last, pos'⟩ := if_pos hlast
      simp only [ne_eq, hlast, not_false_eq_true, if_true]
      exact hall.trans (throw_ends hclose hend' done outer tail' later')
  · refine Ends.bind (finish_ends (f := ⟨.arm earlier condition, opened, body⟩) hend rfl done
      outer tail later) (fun _ h => hrun.trans h) ?_
    rintro _ _ ⟨⟨q, rfl⟩, hput⟩
    exact ⟨rfl, hlater, hrun.trans hput⟩

/-- A subroutine that is read takes the rows of the text that it stands for. -/
theorem subroutine_ends {n : Nat} (ih : Descends n) (s : Scaffold) (kind : SubroutineKind)
    (pos : Position) (tail : Row) (later : List Row) (p : Position)
    (hn : 3 * later.length + 2 ≤ n + 1) (hopens : s.Opens ⟨.keyword kind.opener, pos⟩) :
    Ends (readSubroutine (n + 1) s.inside kind
        ⟨(⟨.keyword kind.opener, pos⟩ :: tail) :: later, 0, p⟩)
      (s.Takes ((⟨.keyword kind.opener, pos⟩ :: tail) :: later))
      (s.Fails ((⟨.keyword kind.opener, pos⟩ :: tail) :: later)) := by
  have hopening : Piece.opening s.inside (⟨.keyword kind.opener, pos⟩ :: tail) =
      Piece.subroutine s.inside kind := by
    cases kind <;> rfl
  have hfresh : (readSubroutineHeader s.inside).Fresh := fun _ _ _ _ _ => rfl
  rw [readSubroutine]
  refine Ends.bind (row_ends hopens (start_eq hfresh hopening p) later) (fun _ h => h) ?_
  rintro h _ ⟨⟨q, rfl⟩, hopen⟩
  refine Ends.bind (ih.body s.finished ⟨.subroutine kind h.name h.params, h.position, []⟩ s.frames
    later q (by omega)) (fun _ hfail => hopen.trans hfail) ?_
  rintro ⟨body, ⟨word, pos'⟩⟩ _ ⟨tail', later', rfl, hlater', hend, hrun⟩
  have hall := hopen.trans hrun
  simp only [List.nil_append] at hall
  -- the body may end with the closing word of the other kind
  by_cases hword : word = kind.closer
  · subst hword
    simp only [ne_eq, not_true_eq_false, if_false]
    refine Ends.bind (finish_ends (f := ⟨.subroutine kind h.name h.params, h.position, body⟩)
      hend (if_neg (by simp)) s.finished s.frames tail' later') (fun _ hf => hall.trans hf) ?_
    rintro _ _ ⟨⟨q', rfl⟩, hput⟩
    exact ⟨rfl, Nat.lt_succ_of_lt hlater', hall.trans hput⟩
  · have hclose : Frame.close ⟨.subroutine kind h.name h.params, h.position, body⟩ ⟨word, pos'⟩ =
        throw ⟨.expected (.terminator kind.closer) (some (.keyword word)), pos'⟩ := if_pos hword
    simp only [ne_eq, hword, not_false_eq_true, if_true]
    exact hall.trans (throw_ends hclose hend s.finished s.frames tail' later')

/-- A conditional that is read takes the rows of the text that it stands for. -/
theorem branch_ends {n : Nat} (ih : Descends n) {s : Scaffold} {pos : Position}
    (hopens : s.Opens ⟨.keyword .kwIf, pos⟩) (tail : Row) (later : List Row)
    (hn : 3 * later.length + 2 ≤ n) :
    Ends ((do
        let condition ← header readGuard
        let (body, rest) ← readArm n s.inside pos
        pure (Stmt.branch condition body rest pos)) ⟨tail :: later, 1, pos⟩)
      (s.Takes ((⟨.keyword .kwIf, pos⟩ :: tail) :: later))
      (s.Fails ((⟨.keyword .kwIf, pos⟩ :: tail) :: later)) := by
  refine Ends.bind (row_ends hopens (start_eq_rest rfl) later) (fun _ h => h) ?_
  rintro condition _ ⟨⟨q, rfl⟩, hopen⟩
  refine Ends.bind (ih.arm s.finished [] condition pos s.frames later q hn)
    (fun _ h => hopen.trans h) ?_
  rintro ⟨body, rest⟩ c ⟨htaken, hrows, hrun⟩
  exact ⟨htaken, Nat.lt_succ_of_lt hrows, hopen.trans hrun⟩

theorem whileLoop_ends {n : Nat} (ih : Descends n) {s : Scaffold} {pos : Position}
    (hopens : s.Opens ⟨.keyword .kwWhile, pos⟩) (tail : Row) (later : List Row)
    (hn : 3 * later.length + 1 ≤ n) :
    Ends ((do
        let condition ← header readCondition
        let (body, _) ← readBody n s.inside .whileLoop pos
        finishLine
        pure (Stmt.whileLoop condition body pos)) ⟨tail :: later, 1, pos⟩)
      (s.Takes ((⟨.keyword .kwWhile, pos⟩ :: tail) :: later))
      (s.Fails ((⟨.keyword .kwWhile, pos⟩ :: tail) :: later)) := by
  refine Ends.bind (row_ends hopens (start_eq_rest rfl) later) (fun _ h => h) ?_
  rintro condition _ ⟨⟨q, rfl⟩, hopen⟩
  refine Ends.bind (ih.body s.finished ⟨.whileLoop condition, pos, []⟩ s.frames later q hn)
    (fun _ h => hopen.trans h) ?_
  rintro ⟨body, ending⟩ _ ⟨tail', later', rfl, hlater', hend, hrun⟩
  have hall := hopen.trans hrun
  refine Ends.bind (finish_ends (f := ⟨.whileLoop condition, pos, body⟩) hend rfl s.finished
    s.frames tail' later') (fun _ h => hall.trans h) ?_
  rintro _ _ ⟨⟨q', rfl⟩, hput⟩
  exact ⟨rfl, Nat.lt_succ_of_lt hlater', hall.trans hput⟩

theorem untilLoop_ends {n : Nat} (ih : Descends n) {s : Scaffold} {pos : Position}
    (hopens : s.Opens ⟨.keyword .kwDo, pos⟩) (tail : Row) (later : List Row)
    (hn : 3 * later.length + 1 ≤ n) :
    Ends ((do
        finishLine
        let (body, ending) ← readBody n s.inside .untilLoop pos
        let condition ← header (readUntil ending.position)
        pure (Stmt.untilLoop body condition pos)) ⟨tail :: later, 1, pos⟩)
      (s.Takes ((⟨.keyword .kwDo, pos⟩ :: tail) :: later))
      (s.Fails ((⟨.keyword .kwDo, pos⟩ :: tail) :: later)) := by
  -- the header is the word alone
  have hheader : Ends (finishLine ⟨tail :: later, 1, pos⟩)
      (fun _ c => (∃ q, c = ⟨later, 0, q⟩) ∧
        s.run ((⟨.keyword .kwDo, pos⟩ :: tail) :: later) =
          (s.put (.opened ⟨.untilLoop, pos, []⟩)).run later)
      (s.Fails ((⟨.keyword .kwDo, pos⟩ :: tail) :: later)) := by
    rw [finishLine_eq_header]
    exact row_ends hopens
      (start_eq_rest (g := fun pos _ => .opened ⟨.untilLoop, pos, []⟩) rfl) later
  refine Ends.bind hheader (fun _ h => h) ?_
  rintro _ _ ⟨⟨q, rfl⟩, hopen⟩
  refine Ends.bind (ih.body s.finished ⟨.untilLoop, pos, []⟩ s.frames later q hn)
    (fun _ h => hopen.trans h) ?_
  rintro ⟨body, ending⟩ _ ⟨tail', later', rfl, hlater', hend, hrun⟩
  have hall := hopen.trans hrun
  refine Ends.bind (close_ends (f := ⟨.untilLoop, pos, body⟩) hend rfl s.finished s.frames tail'
    later') (fun _ h => hall.trans h) ?_
  rintro condition _ ⟨⟨q', rfl⟩, hput⟩
  exact ⟨rfl, Nat.lt_succ_of_lt hlater', hall.trans hput⟩

theorem forLoop_ends {n : Nat} (ih : Descends n) {s : Scaffold} {pos : Position}
    (hopens : s.Opens ⟨.keyword .kwFor, pos⟩) (tail : Row) (later : List Row) (p : Position)
    (hn : 3 * later.length + 1 ≤ n) :
    Ends ((do
        let h ← header readForHeader
        let (body, _) ← readBody n s.inside (.forLoop h.counter) h.position
        header (readClosingName h.counter)
        pure (Stmt.forLoop h.counter h.first h.last h.step body h.position))
        ⟨(⟨.keyword .kwFor, pos⟩ :: tail) :: later, 0, p⟩)
      (s.Takes ((⟨.keyword .kwFor, pos⟩ :: tail) :: later))
      (s.Fails ((⟨.keyword .kwFor, pos⟩ :: tail) :: later)) := by
  have hfresh : readForHeader.Fresh := fun _ _ _ _ _ => rfl
  refine Ends.bind (row_ends hopens (start_eq hfresh rfl p) later) (fun _ h => h) ?_
  rintro h _ ⟨⟨q, rfl⟩, hopen⟩
  refine Ends.bind (ih.body s.finished ⟨.forLoop h.counter h.first h.last h.step, h.position, []⟩
    s.frames later q hn) (fun _ hf => hopen.trans hf) ?_
  rintro ⟨body, ending⟩ _ ⟨tail', later', rfl, hlater', hend, hrun⟩
  -- the frame that the header opened is the one that the body has filled
  have hall := hopen.trans hrun
  refine Ends.bind (close_ends
    (f := ⟨.forLoop h.counter h.first h.last h.step, h.position, body⟩) hend rfl s.finished
    s.frames tail' later') (fun _ hf => hall.trans hf) ?_
  rintro _ _ ⟨⟨q', rfl⟩, hput⟩
  exact ⟨rfl, Nat.lt_succ_of_lt hlater', hall.trans hput⟩

/-- Whether a row is an assignment is seen from its second token. -/
theorem assignFollows_eq (x : Lexeme) (tail : Row) (later : List Row) (taken : Nat)
    (p : Position) :
    assignFollows ⟨(x :: tail) :: later, taken, p⟩ =
      .ok (decide (tail.head?.map Lexeme.token = some (.mark .assign)))
        ⟨(x :: tail) :: later, taken, p⟩ := by
  cases tail with
  | nil => rfl
  | cons y rest =>
    simp only [assignFollows, List.head?_cons, Option.map_some, Option.some.injEq]
    rfl

/-- A statement that is read takes the rows of the text that it stands for. -/
theorem stmt_ends {n : Nat} (ih : Descends n) (s : Scaffold) (x : Lexeme) (tail : Row)
    (later : List Row) (p : Position) (hn : 3 * (later.length + 1) ≤ n + 1)
    (hopens : s.Opens x) :
    Ends (readStmt (n + 1) s.inside ⟨(x :: tail) :: later, 0, p⟩) (s.Takes ((x :: tail) :: later))
      (s.Fails ((x :: tail) :: later)) := by
  obtain ⟨token, pos⟩ := x
  have hadvance : onLine LineReader.advancePosition ⟨(⟨token, pos⟩ :: tail) :: later, 0, p⟩ =
      .ok pos ⟨tail :: later, 1, pos⟩ := rfl
  rw [readStmt]
  refine Ends.bind_ok rfl ?_
  -- the first token decides which statement is read, as it does for a row
  cases token with
  | keyword k =>
    cases k with
    | kwIf => exact Ends.bind_ok hadvance (branch_ends ih hopens tail later (by omega))
    | kwWhile => exact Ends.bind_ok hadvance (whileLoop_ends ih hopens tail later (by omega))
    | kwDo => exact Ends.bind_ok hadvance (untilLoop_ends ih hopens tail later (by omega))
    | kwFor => exact forLoop_ends ih hopens tail later p (by omega)
    | kwProcedure => exact ih.subroutine s .procedure pos tail later p (by omega) hopens
    | kwFunction => exact ih.subroutine s .function pos tail later p (by omega) hopens
    | kwReturn => exact simple_ends hopens (fun _ _ _ _ _ => rfl) rfl later p
    | kwConst | kwGlobal => exact simple_ends hopens fresh_readAssignment rfl later p
    | kwNot => exact Ends.map (simple_ends hopens Expr.fresh_read rfl later p)
    | _ => exact fails_start hopens rfl later
  | name id =>
    refine Ends.bind_ok (assignFollows_eq _ tail later 0 p) ?_
    by_cases hassign : tail.head?.map Lexeme.token = some (.mark .assign)
    · -- a name starts an assignment or an expression
      simp only [hassign, decide_true, if_true]
      exact simple_ends hopens fresh_readAssignment (if_pos hassign) later p
    · simp only [hassign, decide_false, Bool.false_eq_true, if_false]
      exact Ends.map (simple_ends hopens Expr.fresh_read (if_neg hassign) later p)
  | mark m =>
    cases m with
    | plus | minus | openParen | closeParen | comma =>
      exact Ends.map (simple_ends hopens Expr.fresh_read rfl later p)
    | _ => exact fails_start hopens rfl later
  | _ => exact Ends.map (simple_ends hopens Expr.fresh_read rfl later p)

/-- With any amount of fuel, reading down and going row by row come to the same. -/
theorem descends (n : Nat) : Descends n := by
  induction n with
  | zero =>
    exact ⟨fun _ _ _ _ _ h => absurd h (by omega), fun _ _ _ _ _ h => absurd h (by omega),
      fun _ _ _ _ _ _ _ h => absurd h (by omega), fun _ _ _ _ _ _ h => absurd h (by omega)⟩
  | succ n ih => exact ⟨stmt_ends ih, body_ends ih, arm_ends ih, subroutine_ends ih⟩

/-! ## Programs -/

/-- The statements from a cursor on are those that the scaffold completes. -/
theorem readFrom_eq_run (bound : Nat) :
    ∀ (n : Nat) (rows : List Row) (p : Position), rows.length < n → 3 * rows.length ≤ bound →
      Program.readFrom bound n ⟨rows, 0, p⟩ = empty.run rows := by
  intro n
  induction n with
  | zero => exact fun _ _ h => absurd h (by omega)
  | succ n ih =>
    intro rows p hn hbound
    have hlength : (rows.dropWhile List.isEmpty).length ≤ rows.length :=
      (List.dropWhile_sublist _).length_le
    have hrun := run_dropBlank empty rows
    rcases dropBlank_cases rows with hnil | ⟨x, tail, later, hcons⟩
    · -- only blank rows are left, and both stop
      have hnext : nextWithin bound ⟨rows, 0, p⟩ = .ok none ⟨[], 0, p⟩ := by
        unfold nextWithin
        show EStateM.bind nextRow _ _ = _
        simp only [EStateM.bind, nextRow_of_nil hnil p]
        rfl
      rw [hnil] at hrun
      simp only [Program.readFrom, hnext]
      exact hrun
    · have hnext : nextWithin bound ⟨rows, 0, p⟩ =
          EStateM.map some (readStmt bound none) ⟨(x :: tail) :: later, 0, p⟩ := by
        unfold nextWithin
        show EStateM.bind nextRow _ _ = _
        simp only [EStateM.bind, nextRow_of_cons hcons p]
        rfl
      rw [hcons] at hlength hrun
      simp only [List.length_cons] at hlength
      have hstmt := (descends bound).stmt empty x tail later p (by omega)
        (fun f hf => absurd hf (by simp [empty]))
      simp only [Program.readFrom, hnext, EStateM.map]
      cases hread : readStmt bound none ⟨(x :: tail) :: later, 0, p⟩ with
      | error fault c =>
        have hfails : empty.Fails ((x :: tail) :: later) fault := by
          simpa only [Ends, inside, empty, List.findSome?_nil, hread] using hstmt
        exact (hrun.symm.trans hfails).symm
      | ok a c =>
        obtain ⟨rest, taken, q⟩ := c
        have htakes : empty.Takes ((x :: tail) :: later) a ⟨rest, taken, q⟩ := by
          simpa only [Ends, inside, empty, List.findSome?_nil, hread] using hstmt
        obtain ⟨rfl, hrest, hput⟩ := htakes
        simp only [List.length_cons] at hrest
        -- the statement is finished, and the rest is read as if nothing stood before it
        have hafter : (empty.put (.finished a)).run rest =
            ⟨[a] ++ (empty.run rest).statements, (empty.run rest).fault⟩ :=
          run_after [a] empty rest
        rw [← hrun, hput, hafter]
        simp only [ih rest q (by omega) (by omega), List.singleton_append]

/-- **The descent and the scaffold read the same program.** -/
theorem ofRows_eq_run (rows : List Row) : Program.ofRows rows = empty.run rows :=
  readFrom_eq_run _ _ rows _ (Nat.lt_succ_self _) (by simp only [Stmt.readBound]; omega)

end Scaffold

end Primer
