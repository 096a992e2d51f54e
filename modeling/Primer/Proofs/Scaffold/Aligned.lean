import Primer.Proofs.Aligned.Reading
import Primer.Proofs.Scaffold

/-!
# Scaffolds over aligned rows

A step of the scaffold takes aligned rows to aligned scaffolds, or to faults of the same cause at
related positions (`Scaffold.aligned_step`). Such a fault is never about the end of the input
(`Scaffold.step_fault`): only `Scaffold.finish` reports an open block.
-/

set_option autoImplicit false

namespace Primer

variable {R : Position → Position → Prop}

namespace LineReader

variable {α : Type} {A : α → α → Prop}

/-- Aligned readers take all of aligned lines, or find the same left over. -/
theorem Aligned.whole {x y : LineReader α} (h : LineReader.Aligned R A x y) {l m : Line}
    (hlm : l.Aligned R m) : ResultAligned R A (x.whole l) (y.whole m) := by
  have hread := h l m hlm
  simp only [LineReader.whole]
  generalize x l = r at hread
  generalize y m = r' at hread
  cases hread with
  | error hfg => exact .error hfg
  | @ok a b l' m' hab hlm' =>
    obtain ⟨rest, taken, p⟩ := l'
    obtain ⟨rest', taken', q⟩ := m'
    cases hlm'.rest with
    | nil => exact .ok hab
    | @cons x y xs ys hxy _ =>
      simp only [hxy.token]
      exact .error ⟨rfl, hxy.position, rfl⟩

end LineReader

/-- The arms have the same shape. -/
abbrev ArmsAligned (R : Position → Position → Prop) :
    List (Expr × List Stmt) → List (Expr × List Stmt) → Prop :=
  List.Forall₂ fun a b => a.1.Aligned R b.1 ∧ List.Forall₂ (Stmt.Aligned R) a.2 b.2

/-- The headings have the same shape. -/
inductive Heading.Aligned (R : Position → Position → Prop) : Heading → Heading → Prop
  | arm {earlier earlier' : List (Expr × List Stmt)} {c c' : Expr}
      (hearlier : ArmsAligned R earlier earlier') (hc : c.Aligned R c') :
      Aligned R (.arm earlier c) (.arm earlier' c')
  | otherwise {earlier earlier' : List (Expr × List Stmt)} {c c' : Expr} {last last' : List Stmt}
      (hearlier : ArmsAligned R earlier earlier') (hc : c.Aligned R c')
      (hlast : List.Forall₂ (Stmt.Aligned R) last last') :
      Aligned R (.otherwise earlier c last) (.otherwise earlier' c' last')
  | whileLoop {c c' : Expr} (hc : c.Aligned R c') : Aligned R (.whileLoop c) (.whileLoop c')
  | untilLoop : Aligned R .untilLoop .untilLoop
  | forLoop (counter : String) {first first' last last' step step' : Expr}
      (hfirst : first.Aligned R first') (hlast : last.Aligned R last')
      (hstep : step.Aligned R step') :
      Aligned R (.forLoop counter first last step) (.forLoop counter first' last' step')
  | subroutine (kind : SubroutineKind) (name : String) (params : List String) :
      Aligned R (.subroutine kind name params) (.subroutine kind name params)

/-- The frames are of the same block. -/
structure Frame.Aligned (R : Position → Position → Prop) (f g : Frame) : Prop where
  heading : f.heading.Aligned R g.heading
  opened : R f.opened g.opened
  body : List.Forall₂ (Stmt.Aligned R) f.body g.body

/-- The pieces have the same shape. -/
inductive Piece.Aligned (R : Position → Position → Prop) : Piece → Piece → Prop
  | finished {s s' : Stmt} (hs : s.Aligned R s') : Aligned R (.finished s) (.finished s')
  | opened {f g : Frame} (hfg : f.Aligned R g) : Aligned R (.opened f) (.opened g)

/-- The scaffolds have the same shape. -/
structure Scaffold.Aligned (R : Position → Position → Prop) (s t : Scaffold) : Prop where
  finished : List.Forall₂ (Stmt.Aligned R) s.finished t.finished
  frames : List.Forall₂ (Frame.Aligned R) s.frames t.frames

theorem Heading.Aligned.block_eq {h k : Heading} (hhk : h.Aligned R k) : h.block = k.block := by
  cases hhk <;> rfl

theorem Heading.Aligned.kind?_eq {h k : Heading} (hhk : h.Aligned R k) : h.kind? = k.kind? := by
  cases hhk <;> rfl

/-- Arms of a conditional are put in a chain alike. -/
theorem Arms.aligned_chain {arms arms' : List (Expr × List Stmt)} (h : ArmsAligned R arms arms')
    {last last' : Arms} (hlast : last.Aligned R last') :
    (Arms.chain arms last).Aligned R (Arms.chain arms' last') := by
  induction h with
  | nil => exact hlast
  | cons hab _ ih => exact .elseif hab.1 hab.2 ih

theorem Stmt.aligned_conditional {arms arms' : List (Expr × List Stmt)} {c c' : Expr}
    {body body' : List Stmt} {rest rest' : Arms} {p q : Position} (h : ArmsAligned R arms arms')
    (hc : c.Aligned R c') (hbody : List.Forall₂ (Stmt.Aligned R) body body')
    (hrest : rest.Aligned R rest') (hp : R p q) :
    (Stmt.conditional arms c body rest p).Aligned R
      (Stmt.conditional arms' c' body' rest' q) := by
  cases h with
  | nil => exact .branch hc hbody hrest hp
  | cons hab hmore =>
    exact .branch hab.1 hab.2 (Arms.aligned_chain hmore (.elseif hc hbody hrest)) hp

/-! ## Rows that end a body -/

namespace Frame

open LineReader Stmt

theorem Aligned.push {f g : Frame} (h : f.Aligned R g) {s s' : Stmt} (hs : s.Aligned R s') :
    (f.push s).Aligned R (g.push s') :=
  ⟨h.heading, h.opened, List.rel_append h.body (.cons hs .nil)⟩

/-- The ends of bodies are the same word. -/
def EndAligned (R : Position → Position → Prop) (a b : BodyEnd) : Prop :=
  a.word = b.word ∧ R a.position b.position

/-- The same word ends the open block of both, or goes on with it. -/
theorem Aligned.ending? {f g : Frame} (h : f.Aligned R g) {x y : Lexeme} (hxy : x.Aligned R y) :
    Option.Rel (EndAligned R) (f.ending? x) (g.ending? y) := by
  simp only [Frame.ending?, Frame.block, h.heading.block_eq, hxy.token]
  cases y.token with
  | keyword k =>
    by_cases hk : g.heading.block.terminators.contains k
    · simp only [hk, if_true]
      exact .some ⟨rfl, hxy.position⟩
    · simp only [hk]
      exact .none
  | _ => exact .none

/-- Closing the open block gives aligned statements. -/
theorem aligned_close {f g : Frame} (h : f.Aligned R g) {word : Keyword} {p q : Position}
    (hp : R p q) :
    LineReader.Aligned R (Piece.Aligned R) (f.close ⟨word, p⟩) (g.close ⟨word, q⟩) := by
  obtain ⟨heading, opened, body⟩ := f
  obtain ⟨heading', opened', body'⟩ := g
  obtain ⟨hheading, hopened, hbody⟩ := h
  cases hheading with
  | arm hearlier hc =>
    cases word with
    | kwElseif =>
      refine aligned_readGuard.bind fun d d' hd => .pure ?_
      exact .opened ⟨.arm (List.rel_append hearlier (.cons ⟨hc, hbody⟩ .nil)) hd, hopened, .nil⟩
    | kwElse => exact .pure (.opened ⟨.otherwise hearlier hc hbody, hopened, .nil⟩)
    | _ => exact .pure (.finished (aligned_conditional hearlier hc hbody .done hopened))
  | otherwise hearlier hc hlast =>
    simp only [close]
    split
    · -- the word is one that does not close the block
      exact aligned_throw hp rfl
    · exact .pure
        (.finished (aligned_conditional hearlier hc hlast (.otherwise hbody) hopened))
  | whileLoop hc => exact .pure (.finished (.whileLoop hc hbody hopened))
  | untilLoop =>
    exact (aligned_readUntil hp).bind fun c c' hc =>
      .pure (.finished (.untilLoop hbody hc hopened))
  | forLoop counter hfirst hlast hstep =>
    exact (aligned_readClosingName counter).bind fun _ _ _ =>
      .pure (.finished (.forLoop counter hfirst hlast hstep hbody hopened))
  | subroutine kind name params =>
    simp only [close]
    split
    · exact aligned_throw hp rfl
    · exact .pure (.finished (.define kind name params hbody hopened))

end Frame

/-! ## First rows -/

namespace Piece

open LineReader Stmt

theorem aligned_simple {x y : LineReader Stmt} (h : LineReader.Aligned R (Stmt.Aligned R) x y) :
    LineReader.Aligned R (Piece.Aligned R) (simple x) (simple y) :=
  h.bind fun _ _ hs => .pure (.finished hs)

theorem aligned_value : LineReader.Aligned R (Piece.Aligned R) value value :=
  Expr.aligned_read.bind fun _ _ he => .pure (.finished (.expr he))

theorem aligned_subroutine (inside : Option SubroutineKind) (kind : SubroutineKind) :
    LineReader.Aligned R (Piece.Aligned R) (subroutine inside kind) (subroutine inside kind) := by
  refine (aligned_readSubroutineHeader inside).bind fun h k hhk => ?_
  rw [hhk.name, hhk.params]
  exact .pure (.opened ⟨.subroutine kind _ _, hhk.position, .nil⟩)

/-- A row opens the same block in both texts. -/
theorem aligned_opening (inside : Option SubroutineKind) {row row' : Row}
    (h : List.Forall₂ (Lexeme.Aligned R) row row') :
    LineReader.Aligned R (Piece.Aligned R) (opening inside row) (opening inside row') := by
  cases h with
  | nil => exact aligned_failAtPrevious fun _ => rfl
  | @cons x y tail tail' hxy htail =>
    obtain ⟨token, pos⟩ := x
    obtain ⟨_, pos'⟩ := y
    obtain ⟨rfl, hpos⟩ := hxy
    -- the first tokens are the same, so both rows are read in the same way
    cases token with
    | keyword k =>
      cases k with
      | kwIf =>
        refine aligned_advancePosition.bind fun p q hp => ?_
        exact aligned_readGuard.bind fun c c' hc => .pure (.opened ⟨.arm .nil hc, hp, .nil⟩)
      | kwWhile =>
        refine aligned_advancePosition.bind fun p q hp => ?_
        exact aligned_readCondition.bind fun c c' hc =>
          .pure (.opened ⟨.whileLoop hc, hp, .nil⟩)
      | kwDo =>
        exact aligned_advancePosition.bind fun p q hp => .pure (.opened ⟨.untilLoop, hp, .nil⟩)
      | kwFor =>
        refine aligned_readForHeader.bind fun h k hhk => ?_
        rw [hhk.counter]
        exact .pure (.opened ⟨.forLoop _ hhk.first hhk.last hhk.step, hhk.position, .nil⟩)
      | kwProcedure => exact aligned_subroutine inside .procedure
      | kwFunction => exact aligned_subroutine inside .function
      | kwReturn => exact aligned_simple (aligned_readReturn inside)
      | kwConst | kwGlobal => exact aligned_simple aligned_readAssignment
      | kwNot => exact aligned_value
      | _ => exact aligned_throw hpos rfl
    | name id =>
      simp only [opening, head_eq htail]
      split
      · exact aligned_simple aligned_readAssignment
      · exact aligned_value
    | mark m =>
      cases m with
      | plus | minus | openParen | closeParen | comma => exact aligned_value
      | _ => exact aligned_throw hpos rfl
    | _ => exact aligned_value

end Piece

/-! ## Steps -/

namespace Scaffold

open LineReader

/-- The same kind of subroutine is around both places. -/
theorem Aligned.inside_eq {s t : Scaffold} (h : s.Aligned R t) : s.inside = t.inside := by
  have hframes := h.frames
  simp only [inside]
  generalize s.frames = fs at hframes
  generalize t.frames = gs at hframes
  induction hframes with
  | nil => rfl
  | cons hfg _ ih => simp only [List.findSome?_cons, hfg.heading.kind?_eq, ih]

theorem Aligned.put {s t : Scaffold} (h : s.Aligned R t) {p q : Piece} (hpq : p.Aligned R q) :
    (s.put p).Aligned R (t.put q) := by
  obtain ⟨done, frames⟩ := s
  obtain ⟨done', frames'⟩ := t
  obtain ⟨hdone, hframes⟩ := h
  cases hpq with
  | opened hfg => exact ⟨hdone, .cons hfg hframes⟩
  | finished hs =>
    cases hframes with
    | nil => exact ⟨List.rel_append hdone (.cons hs .nil), .nil⟩
    | cons hfg houter => exact ⟨hdone, .cons (hfg.push hs) houter⟩

/-- A row of aligned tokens takes both texts one step further. -/
theorem aligned_start {s t : Scaffold} (h : s.Aligned R t) {x y : Lexeme} {tail tail' : Row}
    (hxy : x.Aligned R y) (htail : List.Forall₂ (Lexeme.Aligned R) tail tail') :
    ResultAligned R (Scaffold.Aligned R) (s.start x tail) (t.start y tail') := by
  have hline : Line.Aligned R ⟨x :: tail, 0, x.position⟩ ⟨y :: tail', 0, y.position⟩ :=
    ⟨.cons hxy htail, rfl, hxy.position⟩
  simp only [start, h.inside_eq]
  exact ((Piece.aligned_opening _ (.cons hxy htail)).whole hline).map fun p q hpq => h.put hpq

/-- Aligned scaffolds take aligned rows alike. -/
theorem aligned_step {s t : Scaffold} (h : s.Aligned R t) {row row' : Row}
    (hrow : List.Forall₂ (Lexeme.Aligned R) row row') :
    ResultAligned R (Scaffold.Aligned R) (s.step row) (t.step row') := by
  cases hrow with
  | nil => exact .ok h
  | @cons x y tail tail' hxy htail =>
    obtain ⟨done, frames⟩ := s
    obtain ⟨done', frames'⟩ := t
    have hframes := h.frames
    cases hframes with
    | nil => exact aligned_start h hxy htail
    | @cons f g outer outer' hfg houter =>
      -- aligned lexemes end the same body, or both start a statement
      have hend := hfg.ending? hxy
      simp only [step]
      generalize f.ending? x = ending at hend
      generalize g.ending? y = ending' at hend
      cases hend with
      | none => exact aligned_start h hxy htail
      | @some a b hab =>
        obtain ⟨word, p⟩ := a
        obtain ⟨_, q⟩ := b
        obtain ⟨rfl, hp⟩ := hab
        have hline : Line.Aligned R ⟨tail, 1, x.position⟩ ⟨tail', 1, y.position⟩ :=
          ⟨htail, rfl, hxy.position⟩
        have hput : Scaffold.Aligned R ⟨done, outer⟩ ⟨done', outer'⟩ := ⟨h.finished, houter⟩
        exact ((Frame.aligned_close hfg hp).whole hline).map fun p q hpq => hput.put hpq

theorem aligned_refl (s : Scaffold) : s.Aligned Eq s := by
  have hstmts : ∀ body : List Stmt, List.Forall₂ (Stmt.Aligned Eq) body body :=
    Stmt.aligned_reflOf fun _ => rfl
  have harms : ∀ arms : List (Expr × List Stmt), ArmsAligned Eq arms arms := fun arms =>
    List.forall₂_same.2 fun a _ => ⟨Expr.aligned_refl (fun _ => rfl) a.1, hstmts a.2⟩
  have hexpr : ∀ e : Expr, e.Aligned Eq e := Expr.aligned_refl fun _ => rfl
  refine ⟨hstmts s.finished, List.forall₂_same.2 fun f _ => ⟨?_, rfl, hstmts f.body⟩⟩
  cases f.heading with
  | arm earlier c => exact .arm (harms earlier) (hexpr c)
  | otherwise earlier c last => exact .otherwise (harms earlier) (hexpr c) (hstmts last)
  | whileLoop c => exact .whileLoop (hexpr c)
  | untilLoop => exact .untilLoop
  | forLoop counter first last step =>
    exact .forLoop counter (hexpr first) (hexpr last) (hexpr step)
  | subroutine kind name params => exact .subroutine kind name params

/-- A row is never at fault for the end of the input. -/
theorem step_fault {s : Scaffold} {row : Row} {fault : Fault} (h : s.step row = .error fault) :
    fault.atEnd = false := by
  -- along equality, a step is aligned with itself
  have hrow : List.Forall₂ (Lexeme.Aligned Eq) row row :=
    List.forall₂_same.2 fun _ _ => ⟨rfl, rfl⟩
  have hstep := aligned_step (aligned_refl s) hrow
  rw [h] at hstep
  cases hstep with
  | error hfg => exact hfg.notAtEnd

end Scaffold

end Primer
