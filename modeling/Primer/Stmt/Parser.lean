import Primer.Cursor
import Primer.Expr.Parser
import Primer.Stmt

/-!
# Parsing statements

A simple statement takes one row. A block takes a header row, the rows of its body and a closing
row; only the search for the next row of a body ever looks beyond the current row, so only a body
can run into the end of the input.

`Stmt.next` reads one statement and leaves the cursor where it stopped, also after a failure.
-/

set_option autoImplicit false

namespace Primer

/-- The end of a body: the word that ended it and its position. -/
structure BodyEnd where
  word : Keyword
  position : Position
deriving DecidableEq, Repr

namespace Stmt

open LineReader RowReader

/-- Reads a header: the current row must be used up by it. -/
@[inline]
def header {α : Type} (reader : LineReader α) : RowReader α := do
  let a ← onLine reader
  finishLine
  pure a

/-- The condition of an arm and the word after it. -/
def readGuard : LineReader Expr := do
  requireMore
  let condition ← Expr.read
  let _ ← expect (.keyword .kwThen) .thenWord
  pure condition

/-- The condition of a loop. -/
def readCondition : LineReader Expr := do
  requireMore
  Expr.read

/-- Qualifiers before an assigned name; each may stand once. The bound is on their number: a third
one repeats an earlier one. -/
def readQualifiers : Nat → Bool → Bool → LineReader (Bool × Bool)
  | 0, sealing, isGlobal => pure (sealing, isGlobal)
  | n + 1, sealing, isGlobal => do
    match ← peek with
    | some (.keyword .kwConst) =>
      let pos ← advancePosition
      if sealing then throw ⟨.repeatedQualifier .kwConst, pos⟩
      readQualifiers n true isGlobal
    | some (.keyword .kwGlobal) =>
      let pos ← advancePosition
      if isGlobal then throw ⟨.repeatedQualifier .kwGlobal, pos⟩
      readQualifiers n sealing true
    | _ => pure (sealing, isGlobal)

/-- An assignment. -/
def readAssignment : LineReader Stmt := do
  let (sealing, isGlobal) ← readQualifiers 3 false false
  let (id, pos) ← LineReader.name .variableName
  let sign ← expect (.mark .assign) .assignSign
  if ← atEnd then throw ⟨.expected .assignedValue none, sign⟩
  let value ← Expr.read
  pure (.assign ⟨id, sealing, isGlobal⟩ value pos)

/-- A return, given the subroutine that it stands in. -/
def readReturn (inside : Option SubroutineKind) : LineReader Stmt := do
  let pos ← advancePosition
  match inside with
  | none => throw ⟨.returnOutside, pos⟩
  | some kind =>
    if ← atEnd then pure (.ret none pos)
    else
      match kind with
      | .procedure => throw ⟨.returnFromProcedure, pos⟩
      | .function =>
        let value ← Expr.read
        pure (.ret (some value) pos)

/-- The header of a counting loop. -/
structure ForHeader where
  counter : String
  first : Expr
  last : Expr
  step : Expr
  position : Position

/-- The header of a counting loop; without a written step the step is one. -/
def readForHeader : LineReader ForHeader := do
  let pos ← advancePosition
  let (counter, _) ← LineReader.name .loopVariable
  let _ ← expect (.mark .assign) .loopAssignSign
  requireMore
  let first ← Expr.read
  let _ ← expect (.keyword .kwTo) .toWord
  requireMore
  let last ← Expr.read
  if ← check (.keyword .kwStep) then
    let _ ← advance
    requireMore
    let step ← Expr.read
    pure ⟨counter, first, last, step, pos⟩
  else pure ⟨counter, first, last, .literal (.integer 1) pos, pos⟩

/-- The first parameter that repeats an earlier one, given the names before. -/
def duplicate? : List String → List (String × Position) → Option (String × Position)
  | _, [] => none
  | seen, (name, pos) :: rest =>
    if seen.contains name then some (name, pos) else duplicate? (seen ++ [name]) rest

/-- The header of a subroutine: its name and its distinct parameters. -/
structure SubroutineHeader where
  name : String
  params : List String
  position : Position
deriving DecidableEq, Repr

/-- The header of a subroutine, which may not stand inside another. -/
def readSubroutineHeader (inside : Option SubroutineKind) : LineReader SubroutineHeader := do
  let pos ← advancePosition
  if inside.isSome then throw ⟨.nestedSubroutine, pos⟩
  let (id, _) ← LineReader.name .subroutineName
  let opened ← expect (.mark .openParen) .parameterList
  let bound := (← get).rest.length + 1
  let params ← parenthesised (LineReader.name .parameterName) opened bound
  match duplicate? [] params with
  | some (param, place) => throw ⟨.duplicateParameter param, place⟩
  | none => pure ⟨id, params.map Prod.fst, pos⟩

/-- The variable that closes a counting loop: its own. -/
def readClosingName (counter : String) : LineReader Unit := do
  let (found, pos) ← LineReader.name .loopVariableAfterNext
  if found ≠ counter then throw ⟨.wrongNext counter found, pos⟩

/-- The condition that closes a repeated body. -/
def readUntil (word : Position) : LineReader Expr := do
  if ← atEnd then throw ⟨.expected .untilCondition none, word⟩
  Expr.read

/-- Whether the lexeme after the next one is an assignment sign. -/
@[inline]
def assignFollows : RowReader Bool := fun c =>
  match c.rows with
  | (_ :: x :: _) :: _ => .ok (x.token == .mark .assign) c
  | _ => .ok false c

/-- The end of a body, if one of the words that end the block comes next; it stays unread. -/
@[inline]
def peekEnd (block : Block) : RowReader (Option BodyEnd) := fun c =>
  match c.rows with
  | (⟨.keyword k, pos⟩ :: _) :: _ =>
    .ok (if block.terminators.contains k then some ⟨k, pos⟩ else none) c
  | _ => .ok none c

mutual

/-- A statement, given the subroutine that it stands in. -/
def readStmt : Nat → Option SubroutineKind → RowReader Stmt
  | 0, _ => onLine (failAtPrevious .incomplete)
  | n + 1, inside => do
    match ← peekLexeme with
    | none => onLine (failAtPrevious .incomplete)
    | some ⟨.keyword .kwIf, _⟩ =>
      let pos ← onLine advancePosition
      let condition ← header readGuard
      let (body, rest) ← readArm n inside pos
      pure (.branch condition body rest pos)
    | some ⟨.keyword .kwWhile, _⟩ =>
      let pos ← onLine advancePosition
      let condition ← header readCondition
      let (body, _) ← readBody n inside .whileLoop pos
      finishLine
      pure (.whileLoop condition body pos)
    | some ⟨.keyword .kwDo, _⟩ =>
      let pos ← onLine advancePosition
      finishLine
      let (body, ending) ← readBody n inside .untilLoop pos
      let condition ← header (readUntil ending.position)
      pure (.untilLoop body condition pos)
    | some ⟨.keyword .kwFor, _⟩ =>
      let h ← header readForHeader
      let (body, _) ← readBody n inside (.forLoop h.counter) h.position
      header (readClosingName h.counter)
      pure (.forLoop h.counter h.first h.last h.step body h.position)
    | some ⟨.keyword .kwProcedure, _⟩ => readSubroutine n inside .procedure
    | some ⟨.keyword .kwFunction, _⟩ => readSubroutine n inside .function
    | some ⟨.keyword .kwReturn, _⟩ => header (readReturn inside)
    | some ⟨.keyword .kwConst, _⟩ => header readAssignment
    | some ⟨.keyword .kwGlobal, _⟩ => header readAssignment
    | some ⟨.keyword k, pos⟩ =>
      if k.isBlock then throw ⟨.strayKeyword k, pos⟩
      else if k.isBinary then throw ⟨.badStart (.keyword k), pos⟩
      else .expr <$> header Expr.read
    | some ⟨.name _, _⟩ =>
      if ← assignFollows then header readAssignment else .expr <$> header Expr.read
    | some ⟨t, pos⟩ =>
      if t.isBinary then throw ⟨.badStart t, pos⟩ else .expr <$> header Expr.read

/-- A body up to one of the words that end it. -/
def readBody : Nat → Option SubroutineKind → Block → Position → RowReader (List Stmt × BodyEnd)
  | 0, _, _, _ => onLine (failAtPrevious .incomplete)
  | n + 1, inside, block, opened => do
    if ← nextRow then
      match ← peekEnd block with
      | some ending =>
        let _ ← onLine advance
        pure ([], ending)
      | none =>
        let s ← readStmt n inside
        let (rest, ending) ← readBody n inside block opened
        pure (s :: rest, ending)
    else throw ⟨.unclosedBlock block opened.line, opened⟩

/-- The body of an arm of a conditional and what follows the arm. -/
def readArm : Nat → Option SubroutineKind → Position → RowReader (List Stmt × Arms)
  | 0, _, _ => onLine (failAtPrevious .incomplete)
  | n + 1, inside, opened => do
    let (body, ending) ← readBody n inside .branch opened
    match ending.word with
    | .kwElseif =>
      let condition ← header readGuard
      let (next, rest) ← readArm n inside opened
      pure (body, .elseif condition next rest)
    | .kwElse =>
      finishLine
      let (final, last) ← readBody n inside .branch opened
      if last.word ≠ .kwEndif then throw ⟨.afterElse last.word, last.position⟩
      finishLine
      pure (body, .otherwise final)
    | _ =>
      finishLine
      pure (body, .done)

/-- A subroutine of the given kind. -/
def readSubroutine : Nat → Option SubroutineKind → SubroutineKind → RowReader Stmt
  | 0, _, _ => onLine (failAtPrevious .incomplete)
  | n + 1, inside, kind => do
    let h ← header (readSubroutineHeader inside)
    let (body, ending) ← readBody n (some kind) (.subroutine kind) h.position
    if ending.word ≠ kind.closer then
      throw ⟨.expected (.terminator kind.closer) (some (.keyword ending.word)), ending.position⟩
    finishLine
    pure (.define kind h.name h.params body h.position)

end

/-- A bound on the recursion that a number of rows can need: every statement and every arm takes a
row of its own. -/
def readBound (rows : Nat) : Nat := 3 * (rows + 1)

/-- Reads the next statement with the given bound; there is none if only blank rows are left. -/
def nextWithin (bound : Nat) : RowReader (Option Stmt) := do
  if ← nextRow then some <$> readStmt bound none else pure none

/-- Reads the next statement; there is none if only blank rows are left. -/
def next : RowReader (Option Stmt) := fun c =>
  nextWithin (readBound c.rows.length) c

end Stmt

end Primer
