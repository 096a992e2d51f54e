import Primer.Program

/-!
# Assembling statements row by row

`Stmt.next` reads a block by descending into it, so the blocks that are still open are known only
to its recursion. A `Scaffold` keeps them as data: the statements that are finished, and one `Frame`
for each open block, the innermost first. `Scaffold.step` takes one row, and `Scaffold.run` takes
the rows of a source one after the other.

`Primer.Proofs.Scaffold.Descent` shows that `Scaffold.run` reads the same program as the descent.
Here are the laws of the step that do not depend on it: rows are taken in order
(`Scaffold.advance_append`), and what is finished is only ever added to (`Scaffold.run_after`).
-/

set_option autoImplicit false

namespace Primer

/-- Runs a reader on a line that it has to use up. -/
def LineReader.whole {α : Type} (reader : LineReader α) (l : Line) : Except Fault α :=
  match reader l with
  | .ok a after =>
    match after.rest with
    | [] => .ok a
    | x :: _ => .error ⟨.unexpectedToken x.token, x.position⟩
  | .error fault _ => .error fault

/-- An open block up to its current body. A conditional keeps the arms before the current one. -/
inductive Heading where
  | arm (earlier : List (Expr × List Stmt)) (condition : Expr)
  | otherwise (earlier : List (Expr × List Stmt)) (condition : Expr) (last : List Stmt)
  | whileLoop (condition : Expr)
  | untilLoop
  | forLoop (counter : String) (first last step : Expr)
  | subroutine (kind : SubroutineKind) (name : String) (params : List String)

/-- The block that a heading opens. -/
def Heading.block : Heading → Block
  | arm _ _ | otherwise _ _ _ => .branch
  | whileLoop _ => .whileLoop
  | untilLoop => .untilLoop
  | forLoop counter _ _ _ => .forLoop counter
  | subroutine kind _ _ => .subroutine kind

/-- The subroutine that a heading opens, if it opens one. -/
def Heading.kind? : Heading → Option SubroutineKind
  | subroutine kind _ _ => some kind
  | _ => none

/-- An open block: its heading, the position of the word that opened it, and the statements of its
current body. -/
structure Frame where
  heading : Heading
  opened : Position
  body : List Stmt

/-- What a row adds to the open blocks: a statement, or a further block. -/
inductive Piece where
  | finished (s : Stmt)
  | opened (f : Frame)

/-- Further arms of a conditional before the given ones. -/
def Arms.chain : List (Expr × List Stmt) → Arms → Arms
  | [], last => last
  | (condition, body) :: more, last => .elseif condition body (chain more last)

/-- The conditional whose last guarded arm is the given one. -/
def Stmt.conditional (earlier : List (Expr × List Stmt)) (condition : Expr) (body : List Stmt)
    (rest : Arms) (pos : Position) : Stmt :=
  match earlier with
  | [] => .branch condition body rest pos
  | (c, b) :: more => .branch c b (Arms.chain more (.elseif condition body rest)) pos

namespace Frame

/-- The block that the frame is for. -/
def block (f : Frame) : Block := f.heading.block

/-- The fault of an input that ends in the block. -/
def unclosed (f : Frame) : Fault := ⟨.unclosedBlock f.block f.opened.line, f.opened⟩

/-- Adds a statement to the current body. -/
def push (f : Frame) (s : Stmt) : Frame := { f with body := f.body ++ [s] }

/-- The end of the current body, if a row that starts with the lexeme ends it. -/
def ending? (f : Frame) (x : Lexeme) : Option BodyEnd :=
  match x.token with
  | .keyword k => if f.block.terminators.contains k then some ⟨k, x.position⟩ else none
  | _ => none

open LineReader Stmt

/-- What the rest of a row gives that ends the current body. -/
def close (f : Frame) (ending : BodyEnd) : LineReader Piece :=
  match f.heading with
  | .arm earlier condition =>
    match ending.word with
    | .kwElseif => do
      let next ← readGuard
      pure (.opened ⟨.arm (earlier ++ [(condition, f.body)]) next, f.opened, []⟩)
    | .kwElse => pure (.opened ⟨.otherwise earlier condition f.body, f.opened, []⟩)
    | _ => pure (.finished (conditional earlier condition f.body .done f.opened))
  | .otherwise earlier condition last =>
    if ending.word ≠ .kwEndif then throw ⟨.afterElse ending.word, ending.position⟩
    else pure (.finished (conditional earlier condition last (.otherwise f.body) f.opened))
  | .whileLoop condition => pure (.finished (.whileLoop condition f.body f.opened))
  | .untilLoop => do
    let condition ← readUntil ending.position
    pure (.finished (.untilLoop f.body condition f.opened))
  | .forLoop counter first last step => do
    readClosingName counter
    pure (.finished (.forLoop counter first last step f.body f.opened))
  | .subroutine kind name params =>
    if ending.word ≠ kind.closer then
      throw ⟨.expected (.terminator kind.closer) (some (.keyword ending.word)), ending.position⟩
    else pure (.finished (.define kind name params f.body f.opened))

end Frame

namespace Piece

open LineReader Stmt

/-- A statement that fills its row. -/
def simple (reader : LineReader Stmt) : LineReader Piece := do
  let s ← reader
  pure (.finished s)

/-- A statement that is an expression. -/
def value : LineReader Piece := do
  let e ← Expr.read
  pure (.finished (.expr e))

/-- The header of a subroutine. -/
def subroutine (inside : Option SubroutineKind) (kind : SubroutineKind) : LineReader Piece := do
  let h ← readSubroutineHeader inside
  pure (.opened ⟨.subroutine kind h.name h.params, h.position, []⟩)

/-- What the first row of a statement gives, in the given subroutine. -/
def opening (inside : Option SubroutineKind) : Row → LineReader Piece
  | [] => failAtPrevious .incomplete
  | ⟨.keyword .kwIf, _⟩ :: _ => do
    let pos ← advancePosition
    let condition ← readGuard
    pure (.opened ⟨.arm [] condition, pos, []⟩)
  | ⟨.keyword .kwWhile, _⟩ :: _ => do
    let pos ← advancePosition
    let condition ← readCondition
    pure (.opened ⟨.whileLoop condition, pos, []⟩)
  | ⟨.keyword .kwDo, _⟩ :: _ => do
    let pos ← advancePosition
    pure (.opened ⟨.untilLoop, pos, []⟩)
  | ⟨.keyword .kwFor, _⟩ :: _ => do
    let h ← readForHeader
    pure (.opened ⟨.forLoop h.counter h.first h.last h.step, h.position, []⟩)
  | ⟨.keyword .kwProcedure, _⟩ :: _ => subroutine inside .procedure
  | ⟨.keyword .kwFunction, _⟩ :: _ => subroutine inside .function
  | ⟨.keyword .kwReturn, _⟩ :: _ => simple (readReturn inside)
  | ⟨.keyword .kwConst, _⟩ :: _ => simple readAssignment
  | ⟨.keyword .kwGlobal, _⟩ :: _ => simple readAssignment
  | ⟨.keyword k, pos⟩ :: _ =>
    if k.isBlock then throw ⟨.strayKeyword k, pos⟩
    else if k.isBinary then throw ⟨.badStart (.keyword k), pos⟩
    else value
  | ⟨.name _, _⟩ :: tail =>
    if tail.head?.map Lexeme.token = some (.mark .assign) then simple readAssignment else value
  | ⟨t, pos⟩ :: _ => if t.isBinary then throw ⟨.badStart t, pos⟩ else value

end Piece

/-- The finished statements of a source, and the blocks that are open after them. -/
structure Scaffold where
  finished : List Stmt
  frames : List Frame

namespace Scaffold

/-- Nothing was read yet. -/
def empty : Scaffold := ⟨[], []⟩

/-- The subroutine that the next row stands in. -/
def inside (s : Scaffold) : Option SubroutineKind := s.frames.findSome? fun f => f.heading.kind?

/-- Adds a piece to the innermost open block, or to the finished statements. -/
def put (s : Scaffold) : Piece → Scaffold
  | .opened f => ⟨s.finished, f :: s.frames⟩
  | .finished st =>
    match s.frames with
    | [] => ⟨s.finished ++ [st], []⟩
    | f :: outer => ⟨s.finished, f.push st :: outer⟩

/-- Takes a row that does not end a body. -/
def start (s : Scaffold) (x : Lexeme) (tail : Row) : Except Fault Scaffold :=
  ((Piece.opening s.inside (x :: tail)).whole ⟨x :: tail, 0, x.position⟩).map s.put

/-- Takes a row. -/
def step (s : Scaffold) : Row → Except Fault Scaffold
  | [] => .ok s
  | x :: tail =>
    match s.frames with
    | [] => s.start x tail
    | f :: outer =>
      match f.ending? x with
      | some ending => ((f.close ending).whole ⟨tail, 1, x.position⟩).map (put ⟨s.finished, outer⟩)
      | none => s.start x tail

/-- Takes rows in order; a fault ends the program with it. -/
def advance : Scaffold → List Row → Except Program Scaffold
  | s, [] => .ok s
  | s, row :: rows =>
    match s.step row with
    | .ok t => t.advance rows
    | .error fault => .error ⟨s.finished, some fault⟩

/-- The program of an input that ends here: an open block is a fault. -/
def finish (s : Scaffold) : Program := ⟨s.finished, s.frames.head?.map Frame.unclosed⟩

/-- The program that rows complete. -/
def run (s : Scaffold) (rows : List Row) : Program :=
  match s.advance rows with
  | .ok t => t.finish
  | .error p => p

/-! ## Laws of the step -/

@[simp]
theorem step_nil (s : Scaffold) : s.step [] = .ok s := rfl

/-- A row that ends no body is the first row of a statement. -/
theorem step_of_opens {s : Scaffold} {x : Lexeme} (h : ∀ f ∈ s.frames.head?, f.ending? x = none)
    (tail : Row) : s.step (x :: tail) = s.start x tail := by
  obtain ⟨done, frames⟩ := s
  cases frames with
  | nil => rfl
  | cons f outer =>
    have hf : f.ending? x = none := h f rfl
    simp only [step, hf]

/-- A row that ends the innermost body is read by its frame. -/
theorem step_of_ends {f : Frame} {x : Lexeme} {ending : BodyEnd} (h : f.ending? x = some ending)
    (done : List Stmt) (outer : List Frame) (tail : Row) :
    step ⟨done, f :: outer⟩ (x :: tail) =
      ((f.close ending).whole ⟨tail, 1, x.position⟩).map (put ⟨done, outer⟩) := by
  simp only [step, h]

/-- A row that is taken is blank, starts a statement, or ends the innermost body. -/
theorem step_cases {s t : Scaffold} {row : Row} (h : s.step row = .ok t) :
    row = [] ∧ t = s ∨
    (∃ x tail piece, row = x :: tail ∧ (∀ f ∈ s.frames.head?, f.ending? x = none) ∧
      (Piece.opening s.inside (x :: tail)).whole ⟨x :: tail, 0, x.position⟩ = .ok piece ∧
      t = s.put piece) ∨
    ∃ x tail f outer ending piece, row = x :: tail ∧ s.frames = f :: outer ∧
      f.ending? x = some ending ∧ (f.close ending).whole ⟨tail, 1, x.position⟩ = .ok piece ∧
      t = put ⟨s.finished, outer⟩ piece := by
  have hput : ∀ {u : Scaffold} {r : Except Fault Piece}, r.map u.put = .ok t →
      ∃ piece, r = .ok piece ∧ t = u.put piece := by
    intro u r hr
    cases r with
    | error fault => cases hr
    | ok piece => exact ⟨piece, rfl, (Except.ok.inj hr).symm⟩
  cases row with
  | nil => exact Or.inl ⟨rfl, (Except.ok.inj h).symm⟩
  | cons x tail =>
    -- the first lexeme alone decides between a further statement and the end of a body
    by_cases hopens : ∀ f ∈ s.frames.head?, f.ending? x = none
    · rw [step_of_opens hopens] at h
      obtain ⟨piece, hpiece, ht⟩ := hput h
      exact Or.inr (Or.inl ⟨x, tail, piece, rfl, hopens, hpiece, ht⟩)
    · obtain ⟨done, frames⟩ := s
      cases frames with
      | nil => exact absurd (fun f hf => by cases hf) hopens
      | cons f outer =>
        obtain ⟨ending, hend⟩ : ∃ ending, f.ending? x = some ending := by
          simpa [Option.ne_none_iff_exists'] using hopens
        rw [step_of_ends hend] at h
        obtain ⟨piece, hpiece, ht⟩ := hput h
        exact Or.inr (Or.inr ⟨x, tail, f, outer, ending, piece, rfl, rfl, hend, hpiece, ht⟩)

@[simp]
theorem advance_nil (s : Scaffold) : s.advance [] = .ok s := rfl

/-- After a row that fits, the rows below are taken. -/
theorem advance_cons_ok {s t : Scaffold} {row : Row} (h : s.step row = .ok t) (rows : List Row) :
    s.advance (row :: rows) = t.advance rows := by
  simp only [advance, h]

theorem advance_cons_error {s : Scaffold} {row : Row} {fault : Fault}
    (h : s.step row = .error fault) (rows : List Row) :
    s.advance (row :: rows) = .error ⟨s.finished, some fault⟩ := by
  simp only [advance, h]

/-- Rows are taken in order. -/
theorem advance_append (s : Scaffold) (before after : List Row) :
    s.advance (before ++ after) = (s.advance before).bind fun t => t.advance after := by
  induction before generalizing s with
  | nil => rfl
  | cons row rows ih =>
    cases h : s.step row with
    | ok t =>
      rw [List.cons_append, advance_cons_ok h, advance_cons_ok h]
      exact ih t
    | error fault =>
      rw [List.cons_append, advance_cons_error h, advance_cons_error h]
      rfl

/-- After a row that fits, the rows below are run. -/
theorem run_cons_ok {s t : Scaffold} {row : Row} (h : s.step row = .ok t) (rows : List Row) :
    s.run (row :: rows) = t.run rows := by
  simp only [run, advance_cons_ok h]

theorem run_cons_error {s : Scaffold} {row : Row} {fault : Fault} (h : s.step row = .error fault)
    (rows : List Row) : s.run (row :: rows) = ⟨s.finished, some fault⟩ := by
  simp only [run, advance_cons_error h]

/-- Blank rows at the front change nothing. -/
theorem run_dropBlank (s : Scaffold) (rows : List Row) :
    s.run (rows.dropWhile List.isEmpty) = s.run rows := by
  induction rows with
  | nil => rfl
  | cons row rows ih =>
    cases row with
    | nil =>
      rw [run_cons_ok (step_nil s)]
      exact ih
    | cons x tail => rfl

/-- The same open blocks after further finished statements. -/
def after (done : List Stmt) (s : Scaffold) : Scaffold := ⟨done ++ s.finished, s.frames⟩

/-- What was finished before has no part in what is put. -/
theorem put_after (done : List Stmt) (s : Scaffold) (p : Piece) :
    (s.after done).put p = (s.put p).after done := by
  obtain ⟨fin, frames⟩ := s
  cases p with
  | opened f => rfl
  | finished st =>
    cases frames with
    | nil => simp only [after, put, List.append_assoc]
    | cons f outer => rfl

/-- What was finished before does not matter for a row. -/
theorem step_after (done : List Stmt) (s : Scaffold) (row : Row) :
    (s.after done).step row = (s.step row).map (after done) := by
  -- only `put` sees the finished statements
  have hput : ∀ (t : Scaffold) (r : Except Fault Piece),
      r.map (t.after done).put = (r.map t.put).map (after done) := by
    intro t r
    cases r with
    | ok p => exact congrArg Except.ok (put_after done t p)
    | error fault => rfl
  obtain ⟨fin, frames⟩ := s
  cases row with
  | nil => rfl
  | cons x tail =>
    cases frames with
    | nil => exact hput ⟨fin, []⟩ _
    | cons f outer =>
      cases h : f.ending? x with
      | some ending =>
        rw [step_of_ends h, after, step_of_ends h]
        exact hput ⟨fin, outer⟩ _
      | none =>
        have hno : ∀ g ∈ (f :: outer).head?, g.ending? x = none := by
          intro g hg
          obtain rfl : f = g := by simpa using hg
          exact h
        rw [step_of_opens hno, step_of_opens hno]
        exact hput ⟨fin, f :: outer⟩ _

theorem put_finished {s : Scaffold} {p : Piece} (hs : s.finished = [])
    (hopen : (s.put p).frames ≠ []) : (s.put p).finished = [] := by
  obtain ⟨fin, frames⟩ := s
  cases p with
  | opened f => exact hs
  | finished st =>
    cases frames with
    | nil => exact absurd rfl hopen
    | cons f outer => exact hs

/-- Nothing is finished by a row after which a block is open. -/
theorem step_finished {s t : Scaffold} {row : Row} (hs : s.finished = []) (h : s.step row = .ok t)
    (hopen : t.frames ≠ []) : t.finished = [] := by
  rcases step_cases h with ⟨-, rfl⟩ | ⟨x, tail, piece, -, -, -, rfl⟩ |
    ⟨x, tail, f, outer, ending, piece, -, -, -, -, rfl⟩
  · exact hs
  · exact put_finished hs hopen
  · exact put_finished hs hopen

/-- What was finished before stands before what the rows complete. -/
theorem run_after (done : List Stmt) (s : Scaffold) (rows : List Row) :
    (s.after done).run rows = ⟨done ++ (s.run rows).statements, (s.run rows).fault⟩ := by
  induction rows generalizing s with
  | nil => rfl
  | cons row rows ih =>
    have hstep := step_after done s row
    cases h : s.step row with
    | ok t =>
      rw [h] at hstep
      rw [run_cons_ok h, run_cons_ok hstep]
      exact ih t
    | error fault =>
      rw [h] at hstep
      rw [run_cons_error h, run_cons_error hstep]
      rfl

end Scaffold

end Primer
