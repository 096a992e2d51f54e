import Primer.Proofs.WellFormed

/-!
# A parser that marks the subroutine it is in

The readers of statements are told the subroutine that they stand in. A parser that is called again
and again keeps it as a mark instead: the body of a subroutine is read with the mark set, and the
mark is cleared after the body, however that ends. A call may fail in the middle of a row or of a
block, and the next call goes on from there.

The two read alike (`Parser.follows`), so no mark is left between calls, and every call gives a
well-formed statement if it gives one (`Parser.calls_wellFormed`).
-/

set_option autoImplicit false

namespace Primer

/-- A place in the rows, and the kind of the subroutine whose body is being read. -/
structure Parser where
  cursor : Cursor
  inside : Option SubroutineKind

namespace Parser

open LineReader RowReader
open Stmt (header)

/-- A reader that may look at the mark and change it. -/
abbrev Reader (α : Type) : Type := EStateM Fault Parser α

section Readers

variable {α : Type}

/-- Reads rows, and leaves the mark. -/
def onRows (reader : RowReader α) : Reader α := fun p =>
  match reader p.cursor with
  | .ok a c => .ok a ⟨c, p.inside⟩
  | .error fault c => .error fault ⟨c, p.inside⟩

/-- Reads rows as the mark says, and leaves the mark. -/
def underMark (reader : Option SubroutineKind → RowReader α) : Reader α := fun p =>
  onRows (reader p.inside) p

/-- Reads with the mark set, and clears it, also after a failure. -/
def marking (kind : SubroutineKind) (reader : Reader α) : Reader α := fun p =>
  match reader ⟨p.cursor, some kind⟩ with
  | .ok a p' => .ok a ⟨p'.cursor, none⟩
  | .error fault p' => .error fault ⟨p'.cursor, none⟩

end Readers

mutual

/-- A statement. -/
def readStmt : Nat → Reader Stmt
  | 0 => onRows (onLine (failAtPrevious .incomplete))
  | n + 1 => do
    match ← onRows peekLexeme with
    | none => onRows (onLine (failAtPrevious .incomplete))
    | some ⟨.keyword .kwIf, _⟩ =>
      let pos ← onRows (onLine advancePosition)
      let condition ← onRows (header Stmt.readGuard)
      let (body, rest) ← readArm n pos
      pure (.branch condition body rest pos)
    | some ⟨.keyword .kwWhile, _⟩ =>
      let pos ← onRows (onLine advancePosition)
      let condition ← onRows (header Stmt.readCondition)
      let (body, _) ← readBody n .whileLoop pos
      onRows finishLine
      pure (.whileLoop condition body pos)
    | some ⟨.keyword .kwDo, _⟩ =>
      let pos ← onRows (onLine advancePosition)
      onRows finishLine
      let (body, ending) ← readBody n .untilLoop pos
      let condition ← onRows (header (Stmt.readUntil ending.position))
      pure (.untilLoop body condition pos)
    | some ⟨.keyword .kwFor, _⟩ =>
      let h ← onRows (header Stmt.readForHeader)
      let (body, _) ← readBody n (.forLoop h.counter) h.position
      onRows (header (Stmt.readClosingName h.counter))
      pure (.forLoop h.counter h.first h.last h.step body h.position)
    | some ⟨.keyword .kwProcedure, _⟩ => readSubroutine n .procedure
    | some ⟨.keyword .kwFunction, _⟩ => readSubroutine n .function
    | some ⟨.keyword .kwReturn, _⟩ => underMark fun inside => header (Stmt.readReturn inside)
    | some ⟨.keyword .kwConst, _⟩ => onRows (header Stmt.readAssignment)
    | some ⟨.keyword .kwGlobal, _⟩ => onRows (header Stmt.readAssignment)
    | some ⟨.keyword k, pos⟩ =>
      if k.isBlock then throw ⟨.strayKeyword k, pos⟩
      else if k.isBinary then throw ⟨.badStart (.keyword k), pos⟩
      else onRows (.expr <$> header Expr.read)
    | some ⟨.name _, _⟩ =>
      if ← onRows Stmt.assignFollows then onRows (header Stmt.readAssignment)
      else onRows (.expr <$> header Expr.read)
    | some ⟨t, pos⟩ =>
      if t.isBinary then throw ⟨.badStart t, pos⟩ else onRows (.expr <$> header Expr.read)

/-- A body up to one of the words that end it. -/
def readBody : Nat → Block → Position → Reader (List Stmt × BodyEnd)
  | 0, _, _ => onRows (onLine (failAtPrevious .incomplete))
  | n + 1, block, opened => do
    if ← onRows nextRow then
      match ← onRows (Stmt.peekEnd block) with
      | some ending =>
        let _ ← onRows (onLine advance)
        pure ([], ending)
      | none =>
        let s ← readStmt n
        let (rest, ending) ← readBody n block opened
        pure (s :: rest, ending)
    else throw ⟨.unclosedBlock block opened.line, opened⟩

/-- The body of an arm of a conditional and what follows the arm. -/
def readArm : Nat → Position → Reader (List Stmt × Arms)
  | 0, _ => onRows (onLine (failAtPrevious .incomplete))
  | n + 1, opened => do
    let (body, ending) ← readBody n .branch opened
    match ending.word with
    | .kwElseif =>
      let condition ← onRows (header Stmt.readGuard)
      let (next, rest) ← readArm n opened
      pure (body, .elseif condition next rest)
    | .kwElse =>
      onRows finishLine
      let (final, last) ← readBody n .branch opened
      if last.word ≠ .kwEndif then throw ⟨.afterElse last.word, last.position⟩
      onRows finishLine
      pure (body, .otherwise final)
    | _ =>
      onRows finishLine
      pure (body, .done)

/-- A subroutine of the given kind, whose body is read with the mark set. -/
def readSubroutine : Nat → SubroutineKind → Reader Stmt
  | 0, _ => onRows (onLine (failAtPrevious .incomplete))
  | n + 1, kind => do
    let h ← underMark fun inside => header (Stmt.readSubroutineHeader inside)
    let (body, ending) ← marking kind (readBody n (.subroutine kind) h.position)
    if ending.word ≠ kind.closer then
      throw ⟨.expected (.terminator kind.closer) (some (.keyword ending.word)), ending.position⟩
    onRows finishLine
    pure (.define kind h.name h.params body h.position)

end

/-- Reads the next statement; there is none if only blank rows are left. -/
def next : Reader (Option Stmt) := fun p =>
  (do if ← onRows nextRow then some <$> readStmt (Stmt.readBound p.cursor.rows.length)
      else pure none : Reader (Option Stmt)) p

/-! ## Agreement with the readers -/

section Following

variable {α β : Type} {inside : Option SubroutineKind}

/-- With the mark set to the subroutine that the second reader is told, the first one reads alike
and leaves the mark as it was. -/
def Follows (inside : Option SubroutineKind) (x : Reader α) (y : RowReader α) : Prop :=
  ∀ c, x ⟨c, inside⟩ = onRows y ⟨c, inside⟩

/-- What reads rows only does so under every mark. -/
theorem follows_onRows (y : RowReader α) : Follows inside (onRows y) y := fun _ => rfl

theorem follows_underMark (y : Option SubroutineKind → RowReader α) :
    Follows inside (underMark y) (y inside) := fun _ => rfl

theorem follows_pure (a : α) : Follows inside (pure a) (pure a) := fun _ => rfl

theorem follows_throw (fault : Fault) :
    Follows inside (throw fault : Reader α) (throw fault) := fun _ => rfl

/-- What follows need only agree on results that the first step can give. -/
theorem Follows.bind_of_gives {x : Reader α} {y : RowReader α} {f : α → Reader β}
    {g : α → RowReader β} {P : α → Prop} (hx : Follows inside x y) (hy : Gives y P)
    (hf : ∀ a, P a → Follows inside (f a) (g a)) : Follows inside (x >>= f) (y >>= g) := by
  intro c
  show EStateM.bind x f ⟨c, inside⟩ = onRows (EStateM.bind y g) ⟨c, inside⟩
  simp only [EStateM.bind, onRows, hx c]
  cases hread : y c with
  | ok a c' => exact hf a (hy c a c' hread) c'
  | error fault c' => rfl

/-- Readers that follow each other do so in a row. -/
theorem Follows.bind {x : Reader α} {y : RowReader α} {f : α → Reader β} {g : α → RowReader β}
    (hx : Follows inside x y) (hf : ∀ a, Follows inside (f a) (g a)) :
    Follows inside (x >>= f) (y >>= g) :=
  hx.bind_of_gives (gives_true y) fun a _ => hf a

theorem Follows.map {x : Reader α} {y : RowReader α} (hx : Follows inside x y) (f : α → β) :
    Follows inside (f <$> x) (f <$> y) := by
  intro c
  show EStateM.map f x ⟨c, inside⟩ = onRows (EStateM.map f y) ⟨c, inside⟩
  simp only [EStateM.map, onRows, hx c]
  cases y c with
  | ok a c' => rfl
  | error fault c' => rfl

/-- The mark of a body is gone after it, on both ways out. -/
theorem Follows.marking {kind : SubroutineKind} {x : Reader α} {y : RowReader α}
    (hx : Follows (some kind) x y) : Follows none (marking kind x) y := by
  intro c
  simp only [Parser.marking, onRows, hx c]
  cases y c with
  | ok a c' => rfl
  | error fault c' => rfl

end Following

/-- The readers with the given bound read alike. -/
structure FollowsAt (n : Nat) : Prop where
  stmt (inside : Option SubroutineKind) : Follows inside (readStmt n) (Stmt.readStmt n inside)
  body (inside : Option SubroutineKind) (block : Block) (opened : Position) :
    Follows inside (readBody n block opened) (Stmt.readBody n inside block opened)
  arm (inside : Option SubroutineKind) (opened : Position) :
    Follows inside (readArm n opened) (Stmt.readArm n inside opened)
  subroutine (inside : Option SubroutineKind) (kind : SubroutineKind) :
    Follows inside (readSubroutine n kind) (Stmt.readSubroutine n inside kind)

namespace FollowsAt

variable {n : Nat}

theorem body_succ (h : FollowsAt n) (inside : Option SubroutineKind) (block : Block)
    (opened : Position) :
    Follows inside (readBody (n + 1) block opened)
      (Stmt.readBody (n + 1) inside block opened) := by
  rw [readBody, Stmt.readBody]
  refine (follows_onRows nextRow).bind fun more => ?_
  cases more with
  | false => exact follows_throw _
  | true =>
    refine (follows_onRows _).bind fun ending => ?_
    cases ending with
    | some ending => exact (follows_onRows _).bind fun _ => follows_pure _
    | none =>
      refine (h.stmt inside).bind fun s => (h.body inside block opened).bind ?_
      rintro ⟨rest, ending⟩
      exact follows_pure _

theorem arm_succ (h : FollowsAt n) (inside : Option SubroutineKind) (opened : Position) :
    Follows inside (readArm (n + 1) opened) (Stmt.readArm (n + 1) inside opened) := by
  rw [readArm, Stmt.readArm]
  refine (h.body inside .branch opened).bind ?_
  rintro ⟨body, ⟨word, place⟩⟩
  cases word with
  | kwElseif =>
    refine (follows_onRows _).bind fun condition => (h.arm inside opened).bind ?_
    rintro ⟨next, rest⟩
    exact follows_pure _
  | kwElse =>
    refine (follows_onRows _).bind fun _ => (h.body inside .branch opened).bind ?_
    rintro ⟨final, last⟩
    dsimp only
    split
    · exact (follows_throw _).bind fun _ => (follows_onRows _).bind fun _ => follows_pure _
    · exact (follows_onRows _).bind fun _ => follows_pure _
  | _ => exact (follows_onRows _).bind fun _ => follows_pure _

/-- A subroutine sets its mark, and clears it at its end. -/
theorem subroutine_succ (h : FollowsAt n) (inside : Option SubroutineKind)
    (kind : SubroutineKind) :
    Follows inside (readSubroutine (n + 1) kind)
      (Stmt.readSubroutine (n + 1) inside kind) := by
  rw [readSubroutine, Stmt.readSubroutine]
  -- a header that is read stands in no subroutine, so that the mark to come back to is none
  refine (follows_underMark fun inside => header (Stmt.readSubroutineHeader inside)).bind_of_gives
    (Stmt.gives_readSubroutineHeader inside).header ?_
  rintro header ⟨rfl, -⟩
  refine (h.body (some kind) (.subroutine kind) header.position).marking.bind ?_
  rintro ⟨body, ending⟩
  dsimp only
  split
  · exact (follows_throw _).bind fun _ => (follows_onRows _).bind fun _ => follows_pure _
  · exact (follows_onRows _).bind fun _ => follows_pure _

/-- A statement is read under the mark that is set. -/
theorem stmt_succ (h : FollowsAt n) (inside : Option SubroutineKind) :
    Follows inside (readStmt (n + 1)) (Stmt.readStmt (n + 1) inside) := by
  rw [readStmt, Stmt.readStmt]
  refine (follows_onRows peekLexeme).bind fun next => ?_
  rcases next with _ | ⟨t, pos⟩
  · exact follows_onRows _
  -- the first token decides which statement is read
  cases t with
  | keyword k =>
    cases k with
    | kwIf =>
      refine (follows_onRows _).bind fun pos => (follows_onRows _).bind fun condition => ?_
      refine (h.arm inside pos).bind ?_
      rintro ⟨body, rest⟩
      exact follows_pure _
    | kwWhile =>
      refine (follows_onRows _).bind fun pos => (follows_onRows _).bind fun condition => ?_
      refine (h.body inside .whileLoop pos).bind ?_
      rintro ⟨body, _⟩
      exact (follows_onRows _).bind fun _ => follows_pure _
    | kwDo =>
      refine (follows_onRows _).bind fun pos => (follows_onRows _).bind fun _ => ?_
      refine (h.body inside .untilLoop pos).bind ?_
      rintro ⟨body, ending⟩
      exact (follows_onRows _).bind fun condition => follows_pure _
    | kwFor =>
      refine (follows_onRows _).bind fun header => ?_
      refine (h.body inside (.forLoop header.counter) header.position).bind ?_
      rintro ⟨body, _⟩
      exact (follows_onRows _).bind fun _ => follows_pure _
    | kwProcedure => exact h.subroutine inside .procedure
    | kwFunction => exact h.subroutine inside .function
    | kwReturn => exact follows_underMark _
    | kwConst | kwGlobal => exact follows_onRows _
    | kwNot => exact follows_onRows _
    | _ => exact follows_throw _
  | name id =>
    refine (follows_onRows _).bind fun assigns => ?_
    cases assigns with
    | true => exact follows_onRows _
    | false => exact follows_onRows _
  | mark m =>
    dsimp only
    split
    · exact follows_throw _
    · exact follows_onRows _
  | _ => exact follows_onRows _

end FollowsAt

/-- **The two ways of reading agree**, by induction on the bound of the recursion. -/
theorem follows (n : Nat) : FollowsAt n := by
  induction n with
  | zero =>
    refine ⟨fun _ => ?_, fun _ _ _ => ?_, fun _ _ => ?_, fun _ _ => ?_⟩
    · rw [readStmt, Stmt.readStmt]; exact follows_onRows _
    · rw [readBody, Stmt.readBody]; exact follows_onRows _
    · rw [readArm, Stmt.readArm]; exact follows_onRows _
    · rw [readSubroutine, Stmt.readSubroutine]; exact follows_onRows _
  | succ n ih => exact ⟨ih.stmt_succ, ih.body_succ, ih.arm_succ, ih.subroutine_succ⟩

/-- Outside of all subroutines the next statement is the one that the readers give. -/
theorem next_eq (c : Cursor) : next ⟨c, none⟩ = onRows Stmt.next ⟨c, none⟩ := by
  refine (follows_onRows nextRow).bind (fun more => ?_) c
  cases more with
  | true => exact ((follows _).stmt none).map some
  | false => exact follows_pure none

/-! ## Calls -/

/-- The parser before the first call. -/
def start (rows : List Row) : Parser := ⟨Cursor.start rows, none⟩

/-- The parser after a call, whether that gave a statement or failed. -/
def after (p : Parser) : Parser :=
  match next p with
  | .ok _ p' | .error _ p' => p'

/-- A call leaves no mark if it finds none. -/
theorem inside_after {p : Parser} (h : p.inside = none) : p.after.inside = none := by
  obtain ⟨c, inside⟩ := p
  obtain rfl : inside = none := h
  rw [after, next_eq, onRows]
  cases Stmt.next c with
  | ok found c' => rfl
  | error fault c' => rfl

/-- The parser of the rows after a number of calls. -/
def reached (rows : List Row) : Nat → Parser
  | 0 => start rows
  | calls + 1 => (reached rows calls).after

/-- Between two calls no mark is set. -/
theorem inside_reached (rows : List Row) (calls : Nat) : (reached rows calls).inside = none := by
  induction calls with
  | zero => rfl
  | succ calls ih => exact inside_after ih

/-- **Every statement that a parser hands out is well formed, also after failures.** After any
number of calls on the rows, of which some may have failed, no mark is left, the next call reads
what the readers read from the same place, and a statement that it gives is well formed. -/
theorem calls_wellFormed (rows : List Row) (calls : Nat) :
    (reached rows calls).inside = none ∧
      next (reached rows calls) = onRows Stmt.next (reached rows calls) ∧
      ∀ s p, next (reached rows calls) = .ok (some s) p → s.node.WellFormed none := by
  have hinside := inside_reached rows calls
  generalize reached rows calls = p at hinside ⊢
  obtain ⟨c, inside⟩ := p
  obtain rfl : inside = none := hinside
  refine ⟨rfl, next_eq c, fun s p hnext => ?_⟩
  rw [next_eq, onRows] at hnext
  dsimp only at hnext
  split at hnext
  · next found c' hread =>
    obtain ⟨rfl, -⟩ := EStateM.Result.ok.inj hnext
    exact Stmt.gives_nextWithin _ c _ c' hread s rfl
  · cases hnext

/-- The first call fails behind a value that a function returns, and the second one goes on there,
outside of the function. -/
theorem calls_wellFormed_resumed :
    let rows : List Row := List.map (List.map (⟨·, Position.start⟩))
      [[.keyword .kwFunction, .name "f", .mark .openParen, .mark .closeParen],
        [.keyword .kwReturn, .integer 1, .integer 2], [.keyword .kwEndfunction]]
    (∃ fault p, next (reached rows 0) = .error fault p) ∧
      ∃ s p, next (reached rows 1) = .ok (some s) p ∧ s.node.WellFormed none := by
  intro rows
  have hfirst : (match next (reached rows 0) with
    | .ok _ _ => false
    | .error _ _ => true) = true := by decide +kernel
  have hsecond : (match next (reached rows 1) with
    | .ok found _ => found.isSome
    | .error _ _ => false) = true := by decide +kernel
  constructor
  · cases hnext : next (reached rows 0) with
    | ok found p => simp [hnext] at hfirst
    | error fault p => exact ⟨fault, p, rfl⟩
  · cases hnext : next (reached rows 1) with
    | error fault p => simp [hnext] at hsecond
    | ok found p =>
      rw [hnext] at hsecond
      obtain ⟨s, rfl⟩ := Option.isSome_iff_exists.1 hsecond
      exact ⟨s, p, rfl, (calls_wellFormed rows 1).2.2 s p hnext⟩

end Parser

end Primer
