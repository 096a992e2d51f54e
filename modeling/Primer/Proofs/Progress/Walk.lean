import Primer.Program
import Primer.Proofs.Progress

/-!
# Walks through rows

The readers of rows and of statements recurse on a bound, so that they end by construction, and fail
where the bound is met. Here are the same readers with an outcome of its own for this: a `Walk` that
meets a bound is `none`, and nothing recovers from that. One that does not would end in the same way
without any bound.

A walk keeps the trail of the cursors that it passed, and only `Walk.advance` and `Walk.leaveRow`
move it. That a walk never meets a bound, and ends as the readers do, is shown for what stands in
one row in `Primer.Proofs.Progress.Readers`, and for statements in `Primer.Proofs.Progress.Calls`.
-/

set_option autoImplicit false

namespace Primer

/-- Where a walk stands, and how it came there. -/
structure Standing (origin : Cursor) where
  cursor : Cursor
  trail : Trail origin cursor

/-- A walk that stands where it begins. -/
def Standing.start (origin : Cursor) : Standing origin := ⟨origin, .start⟩

/-- A reader that is `none` where it meets a bound on its recursion. -/
abbrev Walk (origin : Cursor) (α : Type) : Type :=
  ExceptT Fault (StateT (Standing origin) Option) α

/-- The next lexeme of the current row. -/
def Cursor.next? (c : Cursor) : Option Lexeme := c.rows.head?.bind List.head?

/-- The number of lexemes that are left of the current row. -/
def Cursor.unread (c : Cursor) : Nat := (c.rows.headD []).length

namespace Walk

variable {origin : Cursor} {α : Type}

/-- The bound is met. -/
def exhausted : Walk origin α := fun _ => none

/-! ## Single steps -/

/-- Looks at the cursor, which stays where it is. -/
def look (f : Cursor → α) : Walk origin α := do
  return f (← get).cursor

/-- Takes the next lexeme of the row, if there is one. -/
def advance : Walk origin (Option Lexeme)
  | ⟨⟨(x :: xs) :: later, n, p⟩, trail⟩ =>
    some (.ok (some x), ⟨_, trail.step (.take x xs later n p)⟩)
  | s => some (.ok none, s)

/-- Leaves a row that is used up. -/
def leaveRow : Walk origin Unit
  | ⟨⟨[] :: later, n, p⟩, trail⟩ => some (.ok (), ⟨_, trail.step (.leave later n p)⟩)
  | s => some (.ok (), s)

/-- The next lexeme of the current row, which stays unread. -/
def peekLexeme : Walk origin (Option Lexeme) := look Cursor.next?

/-- The next token, which stays unread. -/
def peek : Walk origin (Option Token) := look fun c => c.next?.map Lexeme.token

/-- Whether the next token is the given one. -/
def check (t : Token) : Walk origin Bool := look fun c => c.next?.map Lexeme.token == some t

/-- Whether the row is used up. -/
def atEnd : Walk origin Bool := look fun c => c.next?.isNone

/-- Whether the lexeme after the next one is an assignment sign. -/
def assignFollows : Walk origin Bool := look fun c =>
  match c.rows with
  | (_ :: x :: _) :: _ => x.token == .mark .assign
  | _ => false

/-- The end of a body, if one of the words that end the block comes next; it stays unread. -/
def peekEnd (block : Block) : Walk origin (Option BodyEnd) := look fun c =>
  match c.next? with
  | some ⟨.keyword k, pos⟩ => if block.terminators.contains k then some ⟨k, pos⟩ else none
  | _ => none

/-- Takes the next lexeme and gives its position; at the end of the row, the previous one. -/
def advancePosition : Walk origin Position := do
  match ← advance with
  | some x => pure x.position
  | none => look Cursor.previous

/-- Fails with the given cause at the last lexeme taken. -/
def failAtPrevious (cause : Cause) : Walk origin α := do
  throw ⟨cause, ← look Cursor.previous⟩

/-- Fails if the row is used up. -/
def requireMore : Walk origin Unit := do
  if ← atEnd then failAtPrevious .incomplete

/-- Takes the given token, or fails naming what was asked for; another token stays unread. -/
def expect (t : Token) (what : Expectation) : Walk origin Position := do
  match ← peekLexeme with
  | none => failAtPrevious (.expected what none)
  | some x =>
    if x.token = t then advancePosition else throw ⟨.expected what (some x.token), x.position⟩

/-- Takes a name and gives it with its position; another token is taken too before failing. -/
def name (what : Expectation) : Walk origin (String × Position) := do
  match ← advance with
  | none => failAtPrevious (.expected what none)
  | some ⟨.name s, pos⟩ => pure (s, pos)
  | some ⟨t, pos⟩ => throw ⟨.expected what (some t), pos⟩

/-- Ends the current row, which must be used up. -/
def finishLine : Walk origin Unit := do
  match ← peekLexeme with
  | none => leaveRow
  | some x => throw ⟨.unexpectedToken x.token, x.position⟩

/-- Moves past blank rows, at most as many as the bound, and says whether a row is left. -/
def skipRows : Nat → Walk origin Bool
  | 0 => exhausted
  | n + 1 => do
    match ← look id with
    | ⟨[], _, _⟩ => pure false
    | ⟨[] :: _, 0, _⟩ =>
      leaveRow
      skipRows n
    | _ => pure true

/-- Moves past blank rows and says whether a row is left. -/
def nextRow : Walk origin Bool := fun s => skipRows (s.cursor.rows.length + 1) s

/-! ## Rows -/

/-- Items separated by commas up to the closing parenthesis, at least one. -/
def items (item : Walk origin α) (opened : Position) : Nat → Walk origin (List α)
  | 0 => exhausted
  | n + 1 => do
    if ← atEnd then throw ⟨.expected .closeParen none, opened⟩
    let x ← item
    match ← advance with
    | none => throw ⟨.expected .closeParen none, opened⟩
    | some ⟨.mark .closeParen, _⟩ => pure [x]
    | some ⟨.mark .comma, comma⟩ =>
      if (← atEnd) || (← check (.mark .closeParen)) then throw ⟨.expected .item none, comma⟩
      let xs ← items item opened n
      pure (x :: xs)
    | some ⟨t, pos⟩ => throw ⟨.expected .separator (some t), pos⟩

/-- Items after an opening parenthesis, separated by commas; there may be none. -/
def parenthesised (item : Walk origin α) (opened : Position) (bound : Nat) :
    Walk origin (List α) := do
  if ← check (.mark .closeParen) then
    let _ ← advance
    pure []
  else items item opened bound

mutual

/-- Operands and operators of one level. -/
def readLevel : Nat → Level → Walk origin Expr
  | 0, _ => exhausted
  | n + 1, level => do
    let left ← readOperand n level
    readMore n level left

/-- Further operators of a level, folded to the left onto what was read. -/
def readMore : Nat → Level → Expr → Walk origin Expr
  | 0, _, _ => exhausted
  | n + 1, level, left => do
    match (← peek).bind level.operator? with
    | none => pure left
    | some op =>
      let pos ← advancePosition
      requireMore
      let right ← readOperand n level
      readMore n level (.binary op left right pos)

/-- An operand of a level: what the next tighter level reads. -/
def readOperand : Nat → Level → Walk origin Expr
  | 0, _ => exhausted
  | n + 1, .logic => readNegation n
  | n + 1, .comparison => readLevel n .sum
  | n + 1, .sum => readLevel n .product
  | n + 1, .product => readLevel n .power
  | n + 1, .power => readFactor n

/-- A comparison after any number of `NOT`. -/
def readNegation : Nat → Walk origin Expr
  | 0 => exhausted
  | n + 1 => do
    if ← check (.keyword .kwNot) then
      let pos ← advancePosition
      requireMore
      let operand ← readNegation n
      pure (.unary .negation operand pos)
    else readLevel n .comparison

/-- A signed factor, or a primary with its calls. -/
def readFactor : Nat → Walk origin Expr
  | 0 => exhausted
  | n + 1 => do
    match ← advance with
    | none => failAtPrevious .incomplete
    | some ⟨.integer k, pos⟩ => readCalls n (.literal (.integer k) pos)
    | some ⟨.float x, pos⟩ => readCalls n (.literal (.float x) pos)
    | some ⟨.boolean b, pos⟩ => readCalls n (.literal (.boolean b) pos)
    | some ⟨.text s, pos⟩ => readCalls n (.literal (.text s) pos)
    | some ⟨.name s, pos⟩ => readCalls n (.name s pos)
    | some ⟨.keyword k, pos⟩ => throw ⟨.unexpectedToken (.keyword k), pos⟩
    | some ⟨.mark m, pos⟩ =>
      match m with
      | .plus =>
        requireMore
        let operand ← readFactor n
        pure (.unary .plus operand pos)
      | .minus =>
        requireMore
        let operand ← readFactor n
        pure (.unary .minus operand pos)
      | .openParen =>
        requireMore
        let inner ← readLevel n .logic
        let _ ← expect (.mark .closeParen) .closeParen
        readCalls n inner
      | _ => throw ⟨.unexpectedToken (.mark m), pos⟩

/-- Any number of argument lists after a callee. -/
def readCalls : Nat → Expr → Walk origin Expr
  | 0, _ => exhausted
  | n + 1, callee => do
    if ← check (.mark .openParen) then
      let pos ← advancePosition
      let arguments ← parenthesised (readLevel n .logic) pos n
      readCalls n (.call callee arguments pos)
    else pure callee

end

/-- Reads an expression of the loosest level. -/
def readExpr : Walk origin Expr := fun s =>
  readLevel (Expr.readBound s.cursor.unread) .logic s

/-- The condition of an arm and the word after it. -/
def readGuard : Walk origin Expr := do
  requireMore
  let condition ← readExpr
  let _ ← expect (.keyword .kwThen) .thenWord
  pure condition

/-- The condition of a loop. -/
def readCondition : Walk origin Expr := do
  requireMore
  readExpr

/-- Qualifiers before an assigned name; each may stand once. -/
def readQualifiers : Nat → Bool → Bool → Walk origin (Bool × Bool)
  | 0, _, _ => exhausted
  | n + 1, sealing, isGlobal => do
    match ← peek with
    | some (.keyword .kwConst) =>
      let pos ← advancePosition
      if sealing then throw ⟨.repeatedQualifier .kwConst, pos⟩
      readQualifiers n true isGlobal
    | some (.keyword .kwGlobal) =>
      let pos ← advancePosition
      if isGlobal then throw ⟨.repeatedQualifier .kwGlobal, pos⟩
      readQualifiers n sealing true
    | _ => pure (sealing, isGlobal)

/-- An assignment. -/
def readAssignment : Walk origin Stmt := do
  let (sealing, isGlobal) ← readQualifiers 3 false false
  let (id, pos) ← name .variableName
  let sign ← expect (.mark .assign) .assignSign
  if ← atEnd then throw ⟨.expected .assignedValue none, sign⟩
  let value ← readExpr
  pure (.assign ⟨id, sealing, isGlobal⟩ value pos)

/-- A return, given the subroutine that it stands in. -/
def readReturn (inside : Option SubroutineKind) : Walk origin Stmt := do
  let pos ← advancePosition
  match inside with
  | none => throw ⟨.returnOutside, pos⟩
  | some kind =>
    if ← atEnd then pure (.ret none pos)
    else
      match kind with
      | .procedure => throw ⟨.returnFromProcedure, pos⟩
      | .function =>
        let value ← readExpr
        pure (.ret (some value) pos)

/-- The header of a counting loop; without a written step the step is one. -/
def readForHeader : Walk origin Stmt.ForHeader := do
  let pos ← advancePosition
  let (counter, _) ← name .loopVariable
  let _ ← expect (.mark .assign) .loopAssignSign
  requireMore
  let first ← readExpr
  let _ ← expect (.keyword .kwTo) .toWord
  requireMore
  let last ← readExpr
  if ← check (.keyword .kwStep) then
    let _ ← advance
    requireMore
    let step ← readExpr
    pure ⟨counter, first, last, step, pos⟩
  else pure ⟨counter, first, last, .literal (.integer 1) pos, pos⟩

/-- The parameters of a subroutine, after the opening parenthesis. -/
def readParameters (opened : Position) : Walk origin (List (String × Position)) := fun s =>
  parenthesised (name .parameterName) opened (s.cursor.unread + 1) s

/-- The header of a subroutine, which may not stand inside another. -/
def readSubroutineHeader (inside : Option SubroutineKind) :
    Walk origin Stmt.SubroutineHeader := do
  let pos ← advancePosition
  if inside.isSome then throw ⟨.nestedSubroutine, pos⟩
  let (id, _) ← name .subroutineName
  let opened ← expect (.mark .openParen) .parameterList
  let params ← readParameters opened
  match Stmt.duplicate? [] params with
  | some (param, place) => throw ⟨.duplicateParameter param, place⟩
  | none => pure ⟨id, params.map Prod.fst, pos⟩

/-- The variable that closes a counting loop: its own. -/
def readClosingName (counter : String) : Walk origin Unit := do
  let (found, pos) ← name .loopVariableAfterNext
  if found ≠ counter then throw ⟨.wrongNext counter found, pos⟩

/-- The condition that closes a repeated body. -/
def readUntil (word : Position) : Walk origin Expr := do
  if ← atEnd then throw ⟨.expected .untilCondition none, word⟩
  readExpr

/-! ## Statements -/

/-- Reads a header: the current row must be used up by it. -/
def header (reader : Walk origin α) : Walk origin α := do
  let a ← reader
  finishLine
  pure a

mutual

/-- A statement, given the subroutine that it stands in. -/
def readStmt : Nat → Option SubroutineKind → Walk origin Stmt
  | 0, _ => exhausted
  | n + 1, inside => do
    match ← peekLexeme with
    | none => failAtPrevious .incomplete
    | some ⟨.keyword .kwIf, _⟩ =>
      let pos ← advancePosition
      let condition ← header readGuard
      let (body, rest) ← readArm n inside pos
      pure (.branch condition body rest pos)
    | some ⟨.keyword .kwWhile, _⟩ =>
      let pos ← advancePosition
      let condition ← header readCondition
      let (body, _) ← readBody n inside .whileLoop pos
      finishLine
      pure (.whileLoop condition body pos)
    | some ⟨.keyword .kwDo, _⟩ =>
      let pos ← advancePosition
      finishLine
      let (body, ending) ← readBody n inside .untilLoop pos
      let condition ← header (readUntil ending.position)
      pure (.untilLoop body condition pos)
    | some ⟨.keyword .kwFor, _⟩ =>
      let h ← header readForHeader
      let (body, _) ← readBody n inside (.forLoop h.counter) h.position
      header (readClosingName h.counter)
      pure (.forLoop h.counter h.first h.last h.step body h.position)
    | some ⟨.keyword .kwProcedure, _⟩ => readSubroutine n inside .procedure
    | some ⟨.keyword .kwFunction, _⟩ => readSubroutine n inside .function
    | some ⟨.keyword .kwReturn, _⟩ => header (readReturn inside)
    | some ⟨.keyword .kwConst, _⟩ => header readAssignment
    | some ⟨.keyword .kwGlobal, _⟩ => header readAssignment
    | some ⟨.keyword k, pos⟩ =>
      if k.isBlock then throw ⟨.strayKeyword k, pos⟩
      else if k.isBinary then throw ⟨.badStart (.keyword k), pos⟩
      else .expr <$> header readExpr
    | some ⟨.name _, _⟩ =>
      if ← assignFollows then header readAssignment else .expr <$> header readExpr
    | some ⟨t, pos⟩ =>
      if t.isBinary then throw ⟨.badStart t, pos⟩ else .expr <$> header readExpr

/-- A body up to one of the words that end it. -/
def readBody :
    Nat → Option SubroutineKind → Block → Position → Walk origin (List Stmt × BodyEnd)
  | 0, _, _, _ => exhausted
  | n + 1, inside, block, opened => do
    if ← nextRow then
      match ← peekEnd block with
      | some ending =>
        let _ ← advance
        pure ([], ending)
      | none =>
        let s ← readStmt n inside
        let (rest, ending) ← readBody n inside block opened
        pure (s :: rest, ending)
    else throw ⟨.unclosedBlock block opened.line, opened⟩

/-- The body of an arm of a conditional and what follows the arm. -/
def readArm : Nat → Option SubroutineKind → Position → Walk origin (List Stmt × Arms)
  | 0, _, _ => exhausted
  | n + 1, inside, opened => do
    let (body, ending) ← readBody n inside .branch opened
    match ending.word with
    | .kwElseif =>
      let condition ← header readGuard
      let (next, rest) ← readArm n inside opened
      pure (body, .elseif condition next rest)
    | .kwElse =>
      finishLine
      let (final, last) ← readBody n inside .branch opened
      if last.word ≠ .kwEndif then throw ⟨.afterElse last.word, last.position⟩
      finishLine
      pure (body, .otherwise final)
    | _ =>
      finishLine
      pure (body, .done)

/-- A subroutine of the given kind. -/
def readSubroutine : Nat → Option SubroutineKind → SubroutineKind → Walk origin Stmt
  | 0, _, _ => exhausted
  | n + 1, inside, kind => do
    let h ← header (readSubroutineHeader inside)
    let (body, ending) ← readBody n (some kind) (.subroutine kind) h.position
    if ending.word ≠ kind.closer then
      throw ⟨.expected (.terminator kind.closer) (some (.keyword ending.word)), ending.position⟩
    finishLine
    pure (.define kind h.name h.params body h.position)

end

/-- Reads the next statement with the given bound; there is none if only blank rows are left. -/
def nextWithin (bound : Nat) : Walk origin (Option Stmt) := do
  if ← nextRow then some <$> readStmt bound none else pure none

/-- Reads the next statement; there is none if only blank rows are left. -/
def next : Walk origin (Option Stmt) := fun s =>
  nextWithin (Stmt.readBound s.cursor.rows.length) s

/-- All statements up to the first failure, and the failure. The second bound is on their number. -/
def programWithin (bound : Nat) : Nat → StateT (Standing origin) Option Program
  | 0 => fun _ => none
  | n + 1 => do
    match ← (nextWithin bound).run with
    | .ok none => pure ⟨[], none⟩
    | .ok (some s) =>
      let rest ← programWithin bound n
      pure ⟨s :: rest.statements, rest.fault⟩
    | .error fault => pure ⟨[], some fault⟩

/-- All statements up to the first failure, and the failure. -/
def program : StateT (Standing origin) Option Program := fun s =>
  programWithin (Stmt.readBound s.cursor.rows.length) (s.cursor.rows.length + 1) s

end Walk

end Primer
