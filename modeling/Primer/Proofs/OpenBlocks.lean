import Primer.Proofs.Extension
import Mathlib.Data.List.Induction

/-!
# The blocks that are open after some rows

Which blocks are open can be seen from the first lexemes of the rows alone: `openBlocks` keeps a
stack of them, the innermost first, and knows nothing of how rows are read. On rows without a fault
it is the stack of frames of the scaffold (`Scaffold.advance_fits`), so an input that ends in a
block is reported where its innermost open block was opened, and one row that closes that block
takes it off the stack (`Scaffold.advance_closing`).
-/

set_option autoImplicit false

namespace Primer

/-- The block that a row opens, and the position of its first word. -/
def Row.opens? : Row → Option (Block × Position)
  | ⟨.keyword .kwIf, p⟩ :: _ => some (.branch, p)
  | ⟨.keyword .kwWhile, p⟩ :: _ => some (.whileLoop, p)
  | ⟨.keyword .kwDo, p⟩ :: _ => some (.untilLoop, p)
  | ⟨.keyword .kwFor, p⟩ :: ⟨.name counter, _⟩ :: _ => some (.forLoop counter, p)
  | ⟨.keyword .kwProcedure, p⟩ :: _ => some (.subroutine .procedure, p)
  | ⟨.keyword .kwFunction, p⟩ :: _ => some (.subroutine .function, p)
  | _ => none

/-- Whether a row starts with a word that closes a block. -/
def Row.closes : Row → Bool
  | ⟨.keyword k, _⟩ :: _ =>
    [.kwEndif, .kwEndwhile, .kwUntil, .kwNext, .kwEndprocedure, .kwEndfunction].contains k
  | _ => false

/-- The tokens of a row that closes the block. -/
def Block.closingTokens : Block → List Token
  | branch => [.keyword .kwEndif]
  | whileLoop => [.keyword .kwEndwhile]
  | untilLoop => [.keyword .kwUntil, .boolean true]
  | forLoop counter => [.keyword .kwNext, .name counter]
  | subroutine kind => [.keyword kind.closer]

/-- A block that is open: where its opening word stands, and in which row. -/
structure OpenBlock where
  block : Block
  position : Position
  row : Nat
deriving DecidableEq, Repr

namespace OpenBlock

/-- The fault of an input that ends in the block. -/
def fault (o : OpenBlock) : Fault := ⟨.unclosedBlock o.block o.position.line, o.position⟩

/-- The row closes the block. -/
def ClosedBy (o : OpenBlock) (row : Row) : Prop := row.map Lexeme.token = o.block.closingTokens

end OpenBlock

/-- The open blocks after a further row, which has the given number. -/
def openAfter (stack : List OpenBlock) (i : Nat) (row : Row) : List OpenBlock :=
  match Row.opens? row with
  | some (block, position) => ⟨block, position, i⟩ :: stack
  | none => if Row.closes row then stack.tail else stack

/-- The open blocks after further rows, numbered from the given one. -/
def openFrom : List OpenBlock → Nat → List Row → List OpenBlock
  | stack, _, [] => stack
  | stack, i, row :: rows => openFrom (openAfter stack i row) (i + 1) rows

/-- The blocks that are open after the rows, the innermost first. -/
def openBlocks (rows : List Row) : List OpenBlock := openFrom [] 0 rows

/-- Rows may be gone through in two parts. -/
theorem openFrom_append (stack : List OpenBlock) (i : Nat) (rows more : List Row) :
    openFrom stack i (rows ++ more) = openFrom (openFrom stack i rows) (i + rows.length) more := by
  induction rows generalizing stack i with
  | nil => rfl
  | cons row rows ih =>
    rw [List.cons_append, openFrom, openFrom, ih, List.length_cons, Nat.add_right_comm,
      Nat.add_assoc]

theorem openBlocks_concat (rows : List Row) (row : Row) :
    openBlocks (rows ++ [row]) = openAfter (openBlocks rows) rows.length row := by
  rw [openBlocks, openFrom_append, Nat.zero_add]
  rfl

/-- A row that opens a block begins with its word. -/
theorem Row.opens?_eq_some {row : Row} {block : Block} {p : Position}
    (h : Row.opens? row = some (block, p)) :
    ∃ tail, row = ⟨.keyword block.opener, p⟩ :: tail := by
  revert h
  fun_cases Row.opens? row <;> intro h <;> cases h <;> exact ⟨_, rfl⟩

/-- A row that opens a counting loop names its counter. -/
theorem Row.name_of_opens? {row : Row} {counter : String} {p : Position}
    (h : Row.opens? row = some (.forLoop counter, p)) : ∃ x ∈ row, x.token = .name counter := by
  revert h
  fun_cases Row.opens? row <;> intro h <;> cases h
  exact ⟨_, List.mem_cons_of_mem _ List.mem_cons_self, rfl⟩

/-- Open blocks stand in the rows that opened them, each in an earlier row than the one inside. -/
theorem openBlocks_spec (rows : List Row) :
    (∀ o ∈ openBlocks rows,
      ∃ row, rows[o.row]? = some row ∧ Row.opens? row = some (o.block, o.position)) ∧
    (openBlocks rows).Pairwise fun inner outer => outer.row < inner.row := by
  induction rows using List.reverseRecOn with
  | nil => exact ⟨fun o ho => absurd ho List.not_mem_nil, .nil⟩
  | append_singleton rows row ih =>
    obtain ⟨hrows, hpairwise⟩ := ih
    -- the blocks of the rows before stand before the new row
    have hbefore : ∀ o ∈ openBlocks rows, o.row < rows.length := by
      intro o ho
      obtain ⟨_, hat, -⟩ := hrows o ho
      exact (List.getElem?_eq_some_iff.1 hat).1
    have hkept : ∀ o ∈ openBlocks rows, ∃ r,
        (rows ++ [row])[o.row]? = some r ∧ Row.opens? r = some (o.block, o.position) := by
      intro o ho
      rw [List.getElem?_append_left (hbefore o ho)]
      exact hrows o ho
    rw [openBlocks_concat, openAfter]
    split
    · next block p hopens =>
      refine ⟨?_, List.pairwise_cons.2 ⟨hbefore, hpairwise⟩⟩
      intro o ho
      rcases List.mem_cons.1 ho with rfl | ho
      · exact ⟨row, List.getElem?_concat_length, hopens⟩
      · exact hkept o ho
    · split
      · exact ⟨fun o ho => hkept o (List.mem_of_mem_tail ho),
          hpairwise.sublist (List.tail_sublist _)⟩
      · exact ⟨hkept, hpairwise⟩

/-! ## What the first row of a statement opens -/

/-- Two readers succeed in a row if both do. -/
theorem LineReader.bind_ok {α β : Type} {x : LineReader α} {next : α → LineReader β} {l l' : Line}
    {b : β} (h : (x >>= next) l = .ok b l') :
    ∃ a m, x l = .ok a m ∧ next a m = .ok b l' := by
  change EStateM.bind x next l = _ at h
  simp only [EStateM.bind] at h
  split at h
  · next a m hx => exact ⟨a, m, hx, h⟩
  · cases h

theorem LineReader.whole_ok {α : Type} {reader : LineReader α} {l : Line} {a : α}
    (h : reader.whole l = .ok a) : ∃ m, reader l = .ok a m := by
  simp only [LineReader.whole] at h
  split at h
  · next b m hreader =>
    split at h
    · exact ⟨m, by rw [hreader, Except.ok.inj h]⟩
    · cases h
  · cases h

namespace Stmt

open LineReader

/-- A header of a counting loop stands at its first word and names the counter after it. -/
theorem readForHeader_ok {x : Lexeme} {tail : Row} {n : Nat} {p : Position} {h : ForHeader}
    {l : Line} (hread : readForHeader ⟨x :: tail, n, p⟩ = .ok h l) :
    h.position = x.position ∧ ∃ q rest, tail = ⟨.name h.counter, q⟩ :: rest := by
  obtain ⟨pos, l₁, hpos, hread⟩ := bind_ok hread
  obtain ⟨rfl, rfl⟩ : x.position = pos ∧ Line.mk tail (n + 1) x.position = l₁ := by
    simpa [advancePosition] using hpos
  obtain ⟨⟨counter, q⟩, l₂, hname, hread⟩ := bind_ok hread
  obtain ⟨_, _, -, hread⟩ := bind_ok hread
  obtain ⟨_, _, -, hread⟩ := bind_ok hread
  obtain ⟨first, _, -, hread⟩ := bind_ok hread
  obtain ⟨_, _, -, hread⟩ := bind_ok hread
  obtain ⟨_, _, -, hread⟩ := bind_ok hread
  obtain ⟨last, _, -, hread⟩ := bind_ok hread
  obtain ⟨written, _, -, hread⟩ := bind_ok hread
  -- whether or not a step is written, the header has the name and the position that were read
  have hheader : h.counter = counter ∧ h.position = x.position := by
    cases written with
    | true =>
      obtain ⟨_, _, -, hread⟩ := bind_ok hread
      obtain ⟨_, _, -, hread⟩ := bind_ok hread
      obtain ⟨step, _, -, hread⟩ := bind_ok hread
      cases hread
      exact ⟨rfl, rfl⟩
    | false =>
      cases hread
      exact ⟨rfl, rfl⟩
  obtain ⟨rfl, hposition⟩ := hheader
  refine ⟨hposition, ?_⟩
  cases tail with
  | nil => simp [LineReader.name] at hname
  | cons y rest =>
    obtain ⟨token, q'⟩ := y
    cases token with
    | name s =>
      simp only [LineReader.name, EStateM.Result.ok.injEq, Prod.mk.injEq] at hname
      exact ⟨q', rest, by rw [hname.1.1]⟩
    | _ => simp [LineReader.name] at hname

theorem readSubroutineHeader_ok {inside : Option SubroutineKind} {x : Lexeme} {tail : Row}
    {n : Nat} {p : Position} {h : SubroutineHeader} {l : Line}
    (hread : readSubroutineHeader inside ⟨x :: tail, n, p⟩ = .ok h l) :
    h.position = x.position := by
  obtain ⟨pos, l₁, hpos, hread⟩ := bind_ok hread
  obtain ⟨rfl, rfl⟩ : x.position = pos ∧ Line.mk tail (n + 1) x.position = l₁ := by
    simpa [advancePosition] using hpos
  cases inside with
  | some kind => cases hread
  | none =>
    obtain ⟨⟨id, q⟩, _, -, hread⟩ := bind_ok hread
    obtain ⟨_, _, -, hread⟩ := bind_ok hread
    obtain ⟨_, _, -, hread⟩ := bind_ok hread
    obtain ⟨params, _, -, hread⟩ := bind_ok hread
    generalize duplicate? [] params = repeated at hread
    cases repeated with
    | some _ => cases hread
    | none =>
      cases hread
      rfl

end Stmt

namespace Piece

open LineReader Stmt

/-- The block that a piece opens, and where. -/
def opens? : Piece → Option (Block × Position)
  | finished _ => none
  | opened f => some (f.block, f.opened)

/-- A statement of one row opens no block. -/
theorem opens?_of_simple {α : Type} {reader : LineReader α} {g : α → Stmt} {l : Line}
    {piece : Piece} (h : whole (do let a ← reader; pure (.finished (g a))) l = .ok piece) :
    piece.opens? = none := by
  obtain ⟨m, hread⟩ := whole_ok h
  obtain ⟨a, _, -, hpure⟩ := bind_ok hread
  cases hpure
  rfl

/-- A row that starts a statement opens the block that its first lexemes say, or none. -/
theorem opening_opens? {inside : Option SubroutineKind} {x : Lexeme} {tail : Row} {piece : Piece}
    (h : (opening inside (x :: tail)).whole ⟨x :: tail, 0, x.position⟩ = .ok piece) :
    Row.closes (x :: tail) = false ∧ piece.opens? = Row.opens? (x :: tail) := by
  obtain ⟨token, pos⟩ := x
  cases token with
  | keyword k =>
    cases k with
    | kwIf | kwWhile =>
      obtain ⟨m, hread⟩ := whole_ok h
      obtain ⟨p, l, hp, hrest⟩ := bind_ok hread
      obtain ⟨c, _, -, hpure⟩ := bind_ok hrest
      cases hp
      cases hpure
      exact ⟨rfl, rfl⟩
    | kwDo =>
      obtain ⟨m, hread⟩ := whole_ok h
      cases hread
      exact ⟨rfl, rfl⟩
    | kwFor =>
      obtain ⟨m, hread⟩ := whole_ok h
      obtain ⟨header, _, hheader, hpure⟩ := bind_ok hread
      obtain ⟨hposition, q, rest, rfl⟩ := readForHeader_ok hheader
      cases hpure
      exact ⟨rfl, congrArg some (congrArg (Prod.mk _) hposition)⟩
    | kwProcedure | kwFunction =>
      obtain ⟨m, hread⟩ := whole_ok h
      obtain ⟨header, _, hheader, hpure⟩ := bind_ok hread
      cases hpure
      exact ⟨rfl, congrArg some (congrArg (Prod.mk _) (readSubroutineHeader_ok hheader))⟩
    | kwReturn | kwConst | kwGlobal | kwNot => exact ⟨rfl, opens?_of_simple h⟩
    -- no statement starts with any other word
    | _ => cases h
  | name id =>
    simp only [opening] at h
    split at h <;> exact ⟨rfl, opens?_of_simple h⟩
  | mark m =>
    cases m with
    | plus | minus | openParen | closeParen | comma => exact ⟨rfl, opens?_of_simple h⟩
    | _ => cases h
  | _ => exact ⟨rfl, opens?_of_simple h⟩

end Piece

/-! ## Frames are open blocks -/

/-- The frame is that of the open block. -/
def Frame.Fits (f : Frame) (o : OpenBlock) : Prop := f.block = o.block ∧ f.opened = o.position

namespace Frame

open LineReader Stmt

/-- A row that ends the current body starts the next arm of the same block, or closes it. -/
theorem close_opens? {f : Frame} {x : Lexeme} {ending : BodyEnd} {tail : Row} {piece : Piece}
    (hend : f.ending? x = some ending)
    (h : (f.close ending).whole ⟨tail, 1, x.position⟩ = .ok piece) :
    Row.opens? (x :: tail) = none ∧
      piece.opens? = if Row.closes (x :: tail) then none else some (f.block, f.opened) := by
  obtain ⟨rfl, hword⟩ := Scaffold.ending?_eq_some hend
  obtain ⟨heading, opened, body⟩ := f
  obtain ⟨word, p⟩ := ending
  cases heading with
  | arm earlier c =>
    obtain rfl | rfl | rfl : word = .kwElseif ∨ word = .kwElse ∨ word = .kwEndif := by
      simpa [Frame.block, Heading.block, Block.terminators] using hword
    · obtain ⟨m, hread⟩ := whole_ok h
      obtain ⟨next, _, -, hpure⟩ := bind_ok hread
      cases hpure
      exact ⟨rfl, rfl⟩
    · obtain ⟨m, hread⟩ := whole_ok h
      cases hread
      exact ⟨rfl, rfl⟩
    · obtain ⟨m, hread⟩ := whole_ok h
      cases hread
      exact ⟨rfl, rfl⟩
  | otherwise earlier c last =>
    obtain rfl | rfl | rfl : word = .kwElseif ∨ word = .kwElse ∨ word = .kwEndif := by
      simpa [Frame.block, Heading.block, Block.terminators] using hword
    · -- after the final alternative, a further arm is a fault
      cases h
    · cases h
    · obtain ⟨m, hread⟩ := whole_ok h
      cases hread
      exact ⟨rfl, rfl⟩
  | whileLoop c =>
    obtain rfl : word = .kwEndwhile := by
      simpa [Frame.block, Heading.block, Block.terminators] using hword
    obtain ⟨m, hread⟩ := whole_ok h
    cases hread
    exact ⟨rfl, rfl⟩
  | untilLoop =>
    obtain rfl : word = .kwUntil := by
      simpa [Frame.block, Heading.block, Block.terminators] using hword
    exact ⟨rfl, Piece.opens?_of_simple h⟩
  | forLoop counter first last step =>
    obtain rfl : word = .kwNext := by
      simpa [Frame.block, Heading.block, Block.terminators] using hword
    exact ⟨rfl, Piece.opens?_of_simple h⟩
  | subroutine kind name params =>
    have hcloser : word = .kwEndprocedure ∨ word = .kwEndfunction := by
      simpa [Frame.block, Heading.block, Block.terminators] using hword
    -- the closing word of the other kind ends the body too, and is a fault
    simp only [close] at h
    split at h
    · cases h
    · obtain ⟨m, hread⟩ := whole_ok h
      cases hread
      rcases hcloser with rfl | rfl <;> exact ⟨rfl, rfl⟩

/-- The row of its closing tokens closes a frame. -/
theorem close_closing {f : Frame} {row : Row}
    (h : row.map Lexeme.token = f.block.closingTokens) :
    ∃ x tail ending s, row = x :: tail ∧ f.ending? x = some ending ∧
      (f.close ending).whole ⟨tail, 1, x.position⟩ = .ok (.finished s) := by
  -- a closing row has one token or two
  have hone : ∀ {k : Keyword}, row.map Lexeme.token = [.keyword k] →
      ∃ p, row = [⟨.keyword k, p⟩] := by
    intro k hk
    obtain ⟨⟨_, p⟩, rfl, rfl⟩ := List.map_eq_singleton_iff.1 hk
    exact ⟨p, rfl⟩
  have htwo : ∀ {k : Keyword} {t : Token}, row.map Lexeme.token = [.keyword k, t] →
      ∃ p q, row = [⟨.keyword k, p⟩, ⟨t, q⟩] := by
    intro k t hk
    obtain ⟨⟨_, p⟩, rest, rfl, rfl, hrest⟩ := List.map_eq_cons_iff.1 hk
    obtain ⟨⟨_, q⟩, rfl, rfl⟩ := List.map_eq_singleton_iff.1 hrest
    exact ⟨p, q, rfl⟩
  obtain ⟨heading, opened, body⟩ := f
  cases heading with
  | arm earlier c =>
    obtain ⟨p, rfl⟩ := hone h
    exact ⟨_, [], ⟨.kwEndif, p⟩, _, rfl, rfl, rfl⟩
  | otherwise earlier c last =>
    obtain ⟨p, rfl⟩ := hone h
    exact ⟨_, [], ⟨.kwEndif, p⟩, _, rfl, rfl, rfl⟩
  | whileLoop c =>
    obtain ⟨p, rfl⟩ := hone h
    exact ⟨_, [], ⟨.kwEndwhile, p⟩, _, rfl, rfl, rfl⟩
  | untilLoop =>
    obtain ⟨p, q, rfl⟩ := htwo h
    exact ⟨_, [_], ⟨.kwUntil, p⟩, _, rfl, rfl, rfl⟩
  | forLoop counter first last step =>
    obtain ⟨p, q, rfl⟩ := htwo h
    refine ⟨_, [_], ⟨.kwNext, p⟩, .forLoop counter first last step body opened, rfl, rfl, ?_⟩
    -- the name in the row is the one that the frame counts in
    show whole (do readClosingName counter; pure _) _ = _
    rw [whole_bind_pure]
    simp [whole, readClosingName, LineReader.name, bind, EStateM.bind, pure, EStateM.pure,
      Except.map]
  | subroutine kind name params =>
    obtain ⟨p, rfl⟩ := hone h
    cases kind with
    | procedure => exact ⟨_, [], ⟨.kwEndprocedure, p⟩, _, rfl, rfl, rfl⟩
    | function => exact ⟨_, [], ⟨.kwEndfunction, p⟩, _, rfl, rfl, rfl⟩

end Frame

namespace Scaffold

/-- The open blocks of the text are kept in step with those of its rows. -/
theorem put_fits {s : Scaffold} {stack : List OpenBlock}
    (hs : List.Forall₂ Frame.Fits s.frames stack) (piece : Piece) (i : Nat) :
    List.Forall₂ Frame.Fits (s.put piece).frames
      (match piece.opens? with
      | some (block, position) => ⟨block, position, i⟩ :: stack
      | none => stack) := by
  obtain ⟨done, frames⟩ := s
  cases piece with
  | opened f => exact .cons ⟨rfl, rfl⟩ hs
  | finished st =>
    cases hs with
    | nil => exact .nil
    | cons hf houter => exact .cons hf houter

/-- After a row that is taken, the frames are the open blocks. -/
theorem step_fits {s t : Scaffold} {stack : List OpenBlock} {row : Row} (i : Nat)
    (hs : List.Forall₂ Frame.Fits s.frames stack) (h : s.step row = .ok t) :
    List.Forall₂ Frame.Fits t.frames (openAfter stack i row) := by
  rcases step_cases h with ⟨rfl, rfl⟩ | ⟨x, tail, piece, rfl, -, hpiece, rfl⟩ |
    ⟨x, tail, f, outer, ending, piece, rfl, hframes, hend, hpiece, rfl⟩
  · exact hs
  · -- a statement starts: its first row opens a block or none, and closes none
    obtain ⟨hcloses, hopens⟩ := Piece.opening_opens? hpiece
    have hput := put_fits hs piece i
    rw [hopens] at hput
    rw [openAfter, hcloses]
    exact hput
  · -- the innermost body ends: its block is closed, or goes on with another arm
    rw [hframes] at hs
    cases hs with
    | @cons _ o _ stack hf houter =>
      obtain ⟨hopens, hpieceOpens⟩ := f.close_opens? hend hpiece
      have hput := put_fits (s := ⟨s.finished, outer⟩) houter piece o.row
      have ho : (⟨f.block, f.opened, o.row⟩ : OpenBlock) = o := by rw [hf.1, hf.2]
      simp only [openAfter, hopens]
      cases hcloses : Row.closes (x :: tail) with
      | true =>
        rw [hpieceOpens, hcloses] at hput
        exact hput
      | false =>
        rw [hpieceOpens, hcloses] at hput
        simp only [Bool.false_eq_true, if_false, ho] at hput ⊢
        exact hput

/-- After rows that are taken, the frames are the open blocks. -/
theorem advance_fits {rows : List Row} {t : Scaffold} (h : empty.advance rows = .ok t) :
    List.Forall₂ Frame.Fits t.frames (openBlocks rows) := by
  -- the induction is on the rows that are left, for any stack before them
  suffices hfrom : ∀ {s : Scaffold} {stack : List OpenBlock} {i : Nat} {rows : List Row},
      List.Forall₂ Frame.Fits s.frames stack → s.advance rows = .ok t →
      List.Forall₂ Frame.Fits t.frames (openFrom stack i rows) from hfrom .nil h
  intro s stack i rows hs hadvance
  induction rows generalizing s stack i with
  | nil =>
    obtain rfl : s = t := Except.ok.inj hadvance
    exact hs
  | cons row rows ih =>
    cases hstep : s.step row with
    | ok u =>
      rw [advance_cons_ok hstep] at hadvance
      exact ih (step_fits i hs hstep) hadvance
    | error fault =>
      rw [advance_cons_error hstep] at hadvance
      cases hadvance

/-- A row that closes the innermost open block is taken, and opens nothing. -/
theorem advance_closing {rows : List Row} {row : Row} {t : Scaffold} {o : OpenBlock}
    {outer : List OpenBlock} (h : empty.advance rows = .ok t) (hopen : openBlocks rows = o :: outer)
    (hrow : o.ClosedBy row) :
    (∃ u, empty.advance (rows ++ [row]) = .ok u) ∧ openBlocks (rows ++ [row]) = outer := by
  have hfits := advance_fits h
  obtain ⟨done, frames⟩ := t
  rw [hopen] at hfits
  cases hfits with
  | @cons f _ fs _ hf _ =>
    have hclosing : row.map Lexeme.token = f.block.closingTokens := by
      rw [hf.1]
      exact hrow
    obtain ⟨x, tail, ending, st, rfl, hend, hclose⟩ := f.close_closing hclosing
    have hstep : step ⟨done, f :: fs⟩ (x :: tail) = .ok (put ⟨done, fs⟩ (.finished st)) := by
      rw [step_of_ends hend, hclose]
      rfl
    obtain ⟨hopens, hcloses⟩ := f.close_opens? hend hclose
    -- what the row finishes opens no block, so the row is one that closes
    refine ⟨⟨put ⟨done, fs⟩ (.finished st), ?_⟩, ?_⟩
    · rw [advance_append, h]
      exact advance_cons_ok hstep []
    · rw [openBlocks_concat, openAfter, hopens, hopen]
      cases hrowCloses : Row.closes (x :: tail) with
      | true => rfl
      | false =>
        rw [hrowCloses] at hcloses
        cases hcloses

end Scaffold

namespace Program

open Scaffold

/-- What rows that are taken read as. -/
theorem complete_of_fits {rows : List Row} {t : Scaffold} (h : empty.advance rows = .ok t) :
    (openBlocks rows = [] → ∃ stmts, (ofRows rows).complete = .ok stmts) ∧
      ∀ o outer, openBlocks rows = o :: outer → (ofRows rows).complete = .error o.fault := by
  have hfits := advance_fits h
  obtain ⟨done, frames⟩ := t
  constructor
  · intro hopen
    rw [hopen] at hfits
    cases hfits with
    | nil => exact ⟨done, complete_eq_ok_iff.2 h⟩
  · intro o outer hopen
    rw [hopen] at hfits
    cases hfits with
    | @cons f _ fs _ hf _ =>
      have hfault : f.unclosed = o.fault := by
        rw [Frame.unclosed, OpenBlock.fault, hf.1, hf.2]
      rw [← hfault]
      exact (complete_eq_unclosed_iff.2 ⟨done, f, fs, h, rfl⟩).1

/-- Rows that end in a block are taken, and the fault is that of the innermost open block. -/
theorem open_of_atEnd {rows : List Row} {fault : Fault}
    (h : (ofRows rows).complete = .error fault) (hend : fault.atEnd = true) :
    (∃ t, empty.advance rows = .ok t) ∧
      ∃ o outer, openBlocks rows = o :: outer ∧ fault = o.fault := by
  obtain ⟨done, f, fs, hadvance, -⟩ := complete_eq_unclosed_iff.1 ⟨h, hend⟩
  refine ⟨⟨_, hadvance⟩, ?_⟩
  have hfits := advance_fits hadvance
  cases hopen : openBlocks rows with
  | nil =>
    rw [hopen] at hfits
    cases hfits
  | cons o outer =>
    have hfault := (complete_of_fits hadvance).2 o outer hopen
    rw [h] at hfault
    exact ⟨o, outer, rfl, Except.error.inj hfault⟩

/-- Closing all open blocks, the innermost first, completes the rows. -/
theorem complete_closingAll {rows more : List Row} {t : Scaffold}
    (h : empty.advance rows = .ok t)
    (hmore : List.Forall₂ OpenBlock.ClosedBy (openBlocks rows) more) :
    ∃ stmts, (ofRows (rows ++ more)).complete = .ok stmts := by
  generalize hstack : openBlocks rows = stack at hmore
  induction hmore generalizing rows t with
  | nil =>
    rw [List.append_nil]
    exact (complete_of_fits h).1 hstack
  | @cons o row outer more hrow _ ih =>
    obtain ⟨⟨u, hu⟩, houter⟩ := advance_closing h hstack hrow
    obtain ⟨stmts, hstmts⟩ := ih hu houter
    rw [List.append_assoc] at hstmts
    exact ⟨stmts, hstmts⟩

end Program

end Primer
