import Primer.Proofs.Extension
import Primer.Proofs.Rendering.Expr

/-!
# Reading rendered programs

Each row of a rendered statement is one step of the scaffold: a header opens a frame, the rows of
a body fill it, and the closing row finishes the statement. So the rows of a statement add just
that statement to whatever is open before them (`Stmt.adds_rows`), and a rendered program reads as
itself, up to positions (`Program.complete_render`).
-/

set_option autoImplicit false

namespace Primer

/-! ## Headers and closing rows -/

namespace LineReader

/-- A reader that leaves nothing takes the whole line. -/
theorem whole_of_ok {α : Type} {reader : LineReader α} {l m : Line} {a : α}
    (h : reader l = .ok a m) (hm : m.tokens = []) : reader.whole l = .ok a := by
  obtain ⟨rest, taken, previous⟩ := m
  obtain rfl : rest = [] := List.map_eq_nil_iff.1 hm
  simp only [whole, h]

end LineReader

namespace Stmt

open LineReader Primer.Expr

theorem ends_nil : Ends [] := fun t ht => by cases ht

/-- A guard is read back up to the word after it. -/
theorem readGuard_tokens (c : Expr) {l : Line} (hl : l.tokens = c.tokens ++ [.keyword .kwThen]) :
    ∃ c', c'.Alike c ∧ readGuard.whole l = .ok c' := by
  obtain ⟨c', m, hc', hm, hread⟩ := c.read_tokens hl
    (ends_cons (by simp) (fun level => by cases level <;> rfl) [])
  obtain ⟨p, m₁, hexpect, hm₁⟩ := expect_of_tokens .thenWord hm
  refine ⟨c', hc', whole_of_ok ?_ hm₁⟩
  rw [readGuard, bind_of_ok (c.requireMore_tokens hl), bind_of_ok hread, bind_of_ok hexpect]
  rfl

theorem readCondition_tokens (c : Expr) {l : Line} (hl : l.tokens = c.tokens) :
    ∃ c', c'.Alike c ∧ readCondition.whole l = .ok c' := by
  have hl' : l.tokens = c.tokens ++ [] := hl.trans (List.append_nil _).symm
  obtain ⟨c', m, hc', hm, hread⟩ := c.read_tokens hl' ends_nil
  refine ⟨c', hc', whole_of_ok ?_ hm⟩
  rw [readCondition, bind_of_ok (c.requireMore_tokens hl')]
  exact hread

theorem readUntil_tokens (c : Expr) (word : Position) {l : Line} (hl : l.tokens = c.tokens) :
    ∃ c', c'.Alike c ∧ (readUntil word).whole l = .ok c' := by
  have hl' : l.tokens = c.tokens ++ [] := hl.trans (List.append_nil _).symm
  obtain ⟨c', m, hc', hm, hread⟩ := c.read_tokens hl' ends_nil
  refine ⟨c', hc', whole_of_ok ?_ hm⟩
  rw [readUntil, bind_of_ok (c.atEnd_tokens hl'), if_neg Bool.false_ne_true]
  exact hread

/-- An expression alone on its row is read back. -/
theorem read_tokens_whole (e : Expr) {l : Line} (hl : l.tokens = e.tokens) :
    ∃ e', e'.Alike e ∧ Expr.read.whole l = .ok e' := by
  obtain ⟨e', m, he', hm, hread⟩ := e.read_tokens (hl.trans (List.append_nil _).symm) ends_nil
  exact ⟨e', he', whole_of_ok hread hm⟩

/-- At a name there are no more qualifiers. -/
theorem readQualifiers_name {n : Nat} {sealing isGlobal : Bool} {id : String} {l : Line}
    {us : List Token} (hl : l.tokens = .name id :: us) :
    readQualifiers (n + 1) sealing isGlobal l = .ok (sealing, isGlobal) l := by
  rw [readQualifiers, bind_of_ok (peek_eq l), hl]
  rfl

theorem readQualifiers_global {n : Nat} {sealing : Bool} {l : Line} {us : List Token}
    (hl : l.tokens = .keyword .kwGlobal :: us) :
    ∃ m, m.tokens = us ∧
      readQualifiers (n + 1) sealing false l = readQualifiers n sealing true m := by
  obtain ⟨p, m, hadvance, hm⟩ := advancePosition_of_tokens hl
  refine ⟨m, hm, ?_⟩
  rw [readQualifiers, bind_of_ok (peek_eq l), hl]
  dsimp only [List.head?_cons]
  rw [bind_of_ok hadvance]
  rfl

theorem readQualifiers_const {n : Nat} {isGlobal : Bool} {l : Line} {us : List Token}
    (hl : l.tokens = .keyword .kwConst :: us) :
    ∃ m, m.tokens = us ∧
      readQualifiers (n + 1) false isGlobal l = readQualifiers n true isGlobal m := by
  obtain ⟨p, m, hadvance, hm⟩ := advancePosition_of_tokens hl
  refine ⟨m, hm, ?_⟩
  rw [readQualifiers, bind_of_ok (peek_eq l), hl]
  dsimp only [List.head?_cons]
  rw [bind_of_ok hadvance]
  rfl

/-- The qualifiers of a target are read back, in the order of its tokens. -/
theorem readQualifiers_tokens (target : Target) {l : Line} {us : List Token}
    (hl : l.tokens = target.tokens ++ us) :
    ∃ m, m.tokens = .name target.name :: us ∧
      readQualifiers 3 false false l = .ok (target.sealing, target.isGlobal) m := by
  obtain ⟨id, sealing, isGlobal⟩ := target
  cases sealing with
  | false =>
    cases isGlobal with
    | false => exact ⟨l, hl, readQualifiers_name hl⟩
    | true =>
      obtain ⟨m, hm, hread⟩ := readQualifiers_global (n := 2) hl
      exact ⟨m, hm, hread.trans (readQualifiers_name hm)⟩
  | true =>
    obtain ⟨m, hm, hread⟩ := readQualifiers_const (n := 2) hl
    rw [hread]
    cases isGlobal with
    | false => exact ⟨m, hm, readQualifiers_name hm⟩
    | true =>
      obtain ⟨m₁, hm₁, hread₁⟩ := readQualifiers_global (n := 1) hm
      exact ⟨m₁, hm₁, hread₁.trans (readQualifiers_name hm₁)⟩

/-- An assignment is read back with its target. -/
theorem readAssignment_tokens (target : Target) (e : Expr) {l : Line}
    (hl : l.tokens = target.tokens ++ .mark .assign :: e.tokens) :
    ∃ e' p, e'.Alike e ∧ readAssignment.whole l = .ok (.assign target e' p) := by
  obtain ⟨m, hm, hqualifiers⟩ := readQualifiers_tokens target hl
  obtain ⟨p, m₁, hname, hm₁⟩ := name_of_tokens .variableName hm
  obtain ⟨q, m₂, hexpect, hm₂⟩ := expect_of_tokens .assignSign hm₁
  have hm₂' : m₂.tokens = e.tokens ++ [] := hm₂.trans (List.append_nil _).symm
  obtain ⟨e', m₃, he', hm₃, hread⟩ := e.read_tokens hm₂' ends_nil
  refine ⟨e', p, he', whole_of_ok ?_ hm₃⟩
  rw [readAssignment, bind_of_ok hqualifiers]
  dsimp only
  rw [bind_of_ok hname]
  dsimp only
  rw [bind_of_ok hexpect, bind_of_ok (e.atEnd_tokens hm₂'), if_neg Bool.false_ne_true,
    bind_of_ok hread]
  rfl

/-- A return without a value is read back in either kind of subroutine. -/
theorem readReturn_tokens (kind : SubroutineKind) {l : Line}
    (hl : l.tokens = [.keyword .kwReturn]) :
    ∃ p, (readReturn (some kind)).whole l = .ok (.ret none p) := by
  obtain ⟨p, m, hadvance, hm⟩ := advancePosition_of_tokens hl
  have hend : atEnd m = .ok true m := by
    rw [atEnd_eq, hm]
    rfl
  refine ⟨p, whole_of_ok ?_ hm⟩
  rw [readReturn, bind_of_ok hadvance]
  dsimp only
  rw [bind_of_ok hend]
  rfl

theorem readReturn_value_tokens (e : Expr) {l : Line}
    (hl : l.tokens = .keyword .kwReturn :: e.tokens) :
    ∃ e' p, e'.Alike e ∧ (readReturn (some .function)).whole l = .ok (.ret (some e') p) := by
  obtain ⟨p, m, hadvance, hm⟩ := advancePosition_of_tokens hl
  have hm' : m.tokens = e.tokens ++ [] := hm.trans (List.append_nil _).symm
  obtain ⟨e', m₁, he', hm₁, hread⟩ := e.read_tokens hm' ends_nil
  refine ⟨e', p, he', whole_of_ok ?_ hm₁⟩
  rw [readReturn, bind_of_ok hadvance]
  dsimp only
  rw [bind_of_ok (e.atEnd_tokens hm'), if_neg Bool.false_ne_true, bind_of_ok hread]
  rfl

/-- The header of a counting loop is read back with its step. -/
theorem readForHeader_tokens (counter : String) (first last step : Expr) {l : Line}
    (hl : l.tokens = .keyword .kwFor :: .name counter :: .mark .assign :: (first.tokens ++
      .keyword .kwTo :: (last.tokens ++ .keyword .kwStep :: step.tokens))) :
    ∃ first' last' step' p, first'.Alike first ∧ last'.Alike last ∧ step'.Alike step ∧
      readForHeader.whole l = .ok ⟨counter, first', last', step', p⟩ := by
  -- the header token by token, each reader from the line that the one before left
  obtain ⟨p, m, hadvance, hm⟩ := advancePosition_of_tokens hl
  obtain ⟨p₁, m₁, hname, hm₁⟩ := name_of_tokens .loopVariable hm
  obtain ⟨p₂, m₂, hassign, hm₂⟩ := expect_of_tokens .loopAssignSign hm₁
  obtain ⟨first', m₃, hfirst, hm₃, hread₁⟩ := first.read_tokens hm₂
    (ends_cons (by simp) (fun level => by cases level <;> rfl) _)
  obtain ⟨p₃, m₄, hto, hm₄⟩ := expect_of_tokens .toWord hm₃
  obtain ⟨last', m₅, hlast, hm₅, hread₂⟩ := last.read_tokens hm₄
    (ends_cons (by simp) (fun level => by cases level <;> rfl) _)
  have hcheck : check (.keyword .kwStep) m₅ = .ok true m₅ := by
    rw [check_eq, hm₅]
    simp
  obtain ⟨p₄, m₆, hstepWord, hm₆⟩ := advance_of_tokens hm₅
  have hm₆' : m₆.tokens = step.tokens ++ [] := hm₆.trans (List.append_nil _).symm
  obtain ⟨step', m₇, hstep, hm₇, hread₃⟩ := step.read_tokens hm₆' ends_nil
  refine ⟨first', last', step', p, hfirst, hlast, hstep, whole_of_ok ?_ hm₇⟩
  rw [readForHeader, bind_of_ok hadvance, bind_of_ok hname]
  dsimp only
  rw [bind_of_ok hassign, bind_of_ok (first.requireMore_tokens hm₂), bind_of_ok hread₁,
    bind_of_ok hto, bind_of_ok (last.requireMore_tokens hm₄), bind_of_ok hread₂,
    bind_of_ok hcheck, if_pos rfl, bind_of_ok hstepWord,
    bind_of_ok (step.requireMore_tokens hm₆'), bind_of_ok hread₃]
  rfl

theorem readClosingName_tokens (counter : String) {l : Line} (hl : l.tokens = [.name counter]) :
    (readClosingName counter).whole l = .ok () := by
  obtain ⟨p, m, hname, hm⟩ := name_of_tokens .loopVariableAfterNext hl
  refine whole_of_ok ?_ hm
  rw [readClosingName, bind_of_ok hname]
  dsimp only
  rw [if_neg (not_not_intro rfl)]
  rfl

/-- Among distinct parameters, none is there twice. -/
theorem duplicate?_eq_none {seen : List String} {params : List (String × Position)}
    (hseen : ∀ param ∈ params, param.1 ∉ seen) (hnodup : (params.map Prod.fst).Nodup) :
    duplicate? seen params = none := by
  induction params generalizing seen with
  | nil => rfl
  | cons param params ih =>
    obtain ⟨id, p⟩ := param
    obtain ⟨hid, hrest⟩ := List.nodup_cons.1 hnodup
    have hfresh : seen.contains id = false := by simpa using hseen (id, p) List.mem_cons_self
    simp only [duplicate?, hfresh, Bool.false_eq_true, if_false]
    refine ih (fun param hparam => ?_) hrest
    rw [List.mem_append, List.mem_singleton]
    rintro (hmem | heq)
    · exact hseen param (List.mem_cons_of_mem _ hparam) hmem
    · exact hid (List.mem_map.2 ⟨param, hparam, heq⟩)

theorem itemReads_params (params : List String) :
    List.Forall₂ (ItemReads (LineReader.name .parameterName) fun a b => a.1 = b)
      (params.map fun param => [Token.name param]) params := by
  rw [List.forall₂_map_left_iff, List.forall₂_same]
  intro param _
  refine ⟨⟨_, [], rfl, by simp⟩, fun l t us hl _ => ?_⟩
  obtain ⟨p, m, hname, hm⟩ := name_of_tokens .parameterName hl
  exact ⟨(param, p), m, rfl, hm, hname⟩

/-- The header of a subroutine is read back with its parameters. -/
theorem readSubroutineHeader_tokens {t : Token} (id : String) {params : List String} {l : Line}
    (hnodup : params.Nodup)
    (hl : l.tokens = t :: .name id ::
      Token.inParens (Token.separated (params.map fun param => [.name param]))) :
    ∃ p, (readSubroutineHeader none).whole l = .ok ⟨id, params, p⟩ := by
  obtain ⟨p, m, hadvance, hm⟩ := advancePosition_of_tokens hl
  obtain ⟨p₁, m₁, hname, hm₁⟩ := name_of_tokens .subroutineName hm
  obtain ⟨opened, m₂, hexpect, hm₂⟩ := expect_of_tokens .parameterList hm₁
  -- the list is bounded by the tokens that are left, and every parameter takes one
  have hcount : (params.map fun param => [Token.name param]).length ≤ m₂.rest.length + 1 := by
    have hseparated := Token.separated_length (params.map fun param => [Token.name param])
      (by simp)
    have hrest : m₂.rest.length =
        (Token.separated (params.map fun param => [Token.name param]) ++
          [Token.mark .closeParen]).length := by
      rw [← hm₂, Line.tokens, List.length_map]
    rw [List.length_append] at hrest
    omega
  obtain ⟨as, m₃, has, hm₃, hparams⟩ :=
    parenthesised_of_tokens opened (itemReads_params params) hm₂ hcount
  have hmap : as.map Prod.fst = params := by
    rw [← List.forall₂_eq_eq_eq, List.forall₂_map_left_iff]
    exact has
  have hdistinct : duplicate? [] as = none :=
    duplicate?_eq_none (fun _ _ => List.not_mem_nil) (by rw [hmap]; exact hnodup)
  refine ⟨p, whole_of_ok ?_ hm₃⟩
  rw [readSubroutineHeader, bind_of_ok hadvance]
  dsimp only [Option.isSome_none]
  rw [if_neg Bool.false_ne_true, bind_of_ok hname]
  dsimp only
  rw [bind_of_ok hexpect, bind_of_ok (show (get : LineReader Line) m₂ = .ok m₂ m₂ from rfl),
    bind_of_ok hparams, hdistinct, hmap]
  rfl

end Stmt

/-! ## Steps of the scaffold on rendered rows -/

/-- Rows with the tokens of two texts are the rows of each. -/
theorem tokenRows_append {rows : List Row} {as bs : List (List Token)}
    (h : tokenRows rows = as ++ bs) :
    ∃ before after, rows = before ++ after ∧ tokenRows before = as ∧ tokenRows after = bs :=
  List.map_eq_append_iff.1 h

/-- The first row with tokens comes after rows without. -/
theorem tokenRows_cons {rows : List Row} {t : Token} {us : List Token} {bs : List (List Token)}
    (h : tokenRows rows = (t :: us) :: bs) :
    ∃ p tail after, rows = (⟨t, p⟩ :: tail) :: after ∧ tail.map Lexeme.token = us ∧
      tokenRows after = bs := by
  obtain ⟨row, after, rfl, hrow, hafter⟩ := List.map_eq_cons_iff.1 h
  obtain ⟨⟨_, p⟩, tail, rfl, rfl, htail⟩ := List.map_eq_cons_iff.1 hrow
  exact ⟨p, tail, after, rfl, htail, hafter⟩

theorem tokenRows_singleton {rows : List Row} {t : Token} {us : List Token}
    (h : tokenRows rows = [t :: us]) :
    ∃ p tail, rows = [⟨t, p⟩ :: tail] ∧ tail.map Lexeme.token = us := by
  obtain ⟨p, tail, after, rfl, htail, hafter⟩ := tokenRows_cons h
  obtain rfl : after = [] := List.map_eq_nil_iff.1 hafter
  exact ⟨p, tail, rfl, htail⟩

namespace Scaffold

open LineReader Stmt Primer.Expr

/-- Adds finished statements in order. -/
def putAll (s : Scaffold) (stmts : List Stmt) : Scaffold :=
  stmts.foldl (fun t st => t.put (.finished st)) s

/-- Statements are put in the innermost open block. -/
theorem putAll_frame (done : List Stmt) (f : Frame) (outer : List Frame) (stmts : List Stmt) :
    putAll ⟨done, f :: outer⟩ stmts = ⟨done, { f with body := f.body ++ stmts } :: outer⟩ := by
  induction stmts generalizing f with
  | nil => simp [putAll]
  | cons st stmts ih =>
    show putAll ⟨done, f.push st :: outer⟩ stmts = _
    rw [ih]
    simp [Frame.push]

theorem putAll_done (done stmts : List Stmt) : putAll ⟨done, []⟩ stmts = ⟨done ++ stmts, []⟩ := by
  induction stmts generalizing done with
  | nil => simp [putAll]
  | cons st stmts ih =>
    show putAll ⟨done ++ [st], []⟩ stmts = _
    rw [ih, List.append_assoc]
    rfl

/-- A finished statement does not change which subroutine is around. -/
theorem inside_put (s : Scaffold) (st : Stmt) : (s.put (.finished st)).inside = s.inside := by
  obtain ⟨done, frames⟩ := s
  cases frames with
  | nil => rfl
  | cons f outer => rfl

/-- Only words that continue or close a construct end a body. -/
theorem ending?_eq_none {t : Token} (h : t.isBlock = false) (f : Frame) (p : Position) :
    f.ending? ⟨t, p⟩ = none := by
  cases hend : f.ending? ⟨t, p⟩ with
  | none => rfl
  | some ending =>
    obtain ⟨hx, hmem⟩ := ending?_eq_some hend
    obtain rfl : t = .keyword ending.word := (Lexeme.mk.inj hx).1
    have hblock : ∀ (block : Block), ∀ k ∈ block.terminators, k.isBlock = true := by
      intro block
      cases block <;> simp [Block.terminators, Keyword.isBlock]
    have hword : ending.word.isBlock = true := hblock f.block _ hmem
    rw [Token.isBlock, hword] at h
    cases h

/-- The first row of a statement puts what its reader gives. -/
theorem step_opening {s : Scaffold} {t : Token} {p : Position} {tail : Row} {piece : Piece}
    (hblock : t.isBlock = false)
    (h : (Piece.opening s.inside (⟨t, p⟩ :: tail)).whole ⟨⟨t, p⟩ :: tail, 0, p⟩ = .ok piece) :
    s.step (⟨t, p⟩ :: tail) = .ok (s.put piece) := by
  rw [step_of_opens fun f _ => ending?_eq_none hblock f p, start]
  show (whole _ ⟨⟨t, p⟩ :: tail, 0, p⟩).map s.put = _
  rw [h]
  rfl

/-- The rows add the statement, up to positions, to what is open. -/
def Adds (s : Scaffold) (rows : List Row) (st : Stmt) : Prop :=
  ∃ st', st'.Alike st ∧ s.advance rows = .ok (s.put (.finished st'))

/-- The rows add the statements, up to positions, to what is open. -/
def AddsAll (s : Scaffold) (rows : List Row) (body : List Stmt) : Prop :=
  ∃ body', List.Forall₂ Stmt.Alike body' body ∧ s.advance rows = .ok (s.putAll body')

/-- A row that is a statement of its own adds it. -/
theorem adds_of_opening {s : Scaffold} {t : Token} {p : Position} {tail : Row} {st st' : Stmt}
    (hst : st'.Alike st) (hblock : t.isBlock = false)
    (h : (Piece.opening s.inside (⟨t, p⟩ :: tail)).whole ⟨⟨t, p⟩ :: tail, 0, p⟩ =
      .ok (.finished st')) : s.Adds [⟨t, p⟩ :: tail] st :=
  ⟨st', hst, advance_cons_ok (step_opening hblock h) []⟩

/-- A block: its header opens a frame, its body fills it, and its closing row finishes it. -/
theorem adds_of_block {s : Scaffold} {heading : Heading} {p : Position} {header closing : Row}
    {rows : List Row} {body : List Stmt} {st : Stmt} {make : List Stmt → Stmt}
    (hheader : s.step header = .ok (s.put (.opened ⟨heading, p, []⟩)))
    (hbody : AddsAll ⟨s.finished, ⟨heading, p, []⟩ :: s.frames⟩ rows body)
    (hclosing : ∀ body', step ⟨s.finished, ⟨heading, p, body'⟩ :: s.frames⟩ closing =
      .ok (s.put (.finished (make body'))))
    (hmake : ∀ body', List.Forall₂ Stmt.Alike body' body → (make body').Alike st) :
    s.Adds (header :: (rows ++ [closing])) st := by
  obtain ⟨body', hbody', hadvance⟩ := hbody
  refine ⟨make body', hmake body' hbody', ?_⟩
  rw [advance_cons_ok hheader]
  show advance ⟨s.finished, ⟨heading, p, []⟩ :: s.frames⟩ (rows ++ [closing]) = _
  rw [advance_append, hadvance, putAll_frame]
  exact advance_cons_ok (hclosing body') []

/-- A row that ends the innermost body puts what its frame gives. -/
theorem step_closing {s : Scaffold} {f : Frame} {k : Keyword} {p : Position} {tail : Row}
    {piece : Piece} (hend : f.block.terminators.contains k = true)
    (h : (f.close ⟨k, p⟩).whole ⟨tail, 1, p⟩ = .ok piece) :
    step ⟨s.finished, f :: s.frames⟩ (⟨.keyword k, p⟩ :: tail) = .ok (s.put piece) := by
  have hending : f.ending? ⟨.keyword k, p⟩ = some ⟨k, p⟩ := by
    simp only [Frame.ending?, hend, if_true]
  rw [step_of_ends hending]
  show ((f.close ⟨k, p⟩).whole ⟨tail, 1, p⟩).map _ = _
  rw [h]
  rfl

/-- The same for a row that a reader reads after the word that ends the body. -/
theorem step_closing_of_reader {α : Type} {reader : LineReader α} {g : α → Piece} {s : Scaffold}
    {f : Frame} {k : Keyword} {p : Position} {tail : Row} {a : α}
    (hend : f.block.terminators.contains k = true)
    (hclose : f.close ⟨k, p⟩ = do let a ← reader; pure (g a))
    (hread : reader.whole ⟨tail, 1, p⟩ = .ok a) :
    step ⟨s.finished, f :: s.frames⟩ (⟨.keyword k, p⟩ :: tail) = .ok (s.put (g a)) := by
  refine step_closing hend ?_
  rw [hclose, whole_bind_pure, hread]
  rfl

end Scaffold

/-! ## Statements -/

theorem Expr.not_mem_wrapped {b : Bool} {ts : List Token} (h : .mark .assign ∉ ts) :
    .mark .assign ∉ Token.wrapped b ts := by
  cases b <;> simp [Token.wrapped, Token.inParens, h]

theorem Expr.not_mem_separated {tss : List (List Token)} (h : ∀ ts ∈ tss, .mark .assign ∉ ts) :
    .mark .assign ∉ Token.separated tss := by
  fun_induction Token.separated tss <;> simp_all

mutual

/-- No expression has the sign of an assignment. -/
theorem Expr.assign_not_mem : ∀ e : Expr, .mark .assign ∉ e.tokens
  | .literal v _ => by cases v <;> simp [Expr.tokens, Literal.token]
  | .name id _ => by simp [Expr.tokens]
  | .unary op e _ => by
    have he := Expr.not_mem_wrapped (b := e.precedence < op.precedence) e.assign_not_mem
    cases op <;> simpa [Expr.tokens, UnaryOp.token] using he
  | .binary op l r _ => by
    have hl := Expr.not_mem_wrapped (b := l.precedence < op.precedence) l.assign_not_mem
    have hr := Expr.not_mem_wrapped (b := r.precedence ≤ op.precedence) r.assign_not_mem
    -- the sign belongs to no level
    have hop : Token.mark .assign ≠ op.token := by
      obtain ⟨level, -, hoperator⟩ := Level.operator?_token op
      intro h
      rw [← h] at hoperator
      cases level <;> cases hoperator
    simp [Expr.tokens, hl, hr, hop]
  | .call c es _ => by
    have hc := Expr.not_mem_wrapped (b := c.precedence < 7) c.assign_not_mem
    have hes := Expr.not_mem_separated (Expr.assign_not_memOf es)
    simp [Expr.tokens, Token.inParens, hc, hes]

/-- No argument holds the mark of an assignment. -/
theorem Expr.assign_not_memOf : ∀ es : List Expr, ∀ ts ∈ Expr.tokensOf es, .mark .assign ∉ ts
  | [] => by simp [Expr.tokensOf]
  | e :: es => by
    intro ts hts
    rcases List.mem_cons.1 hts with rfl | hts
    · exact e.assign_not_mem
    · exact Expr.assign_not_memOf es ts hts

end

/-- No expression begins with a word of a block. -/
theorem Expr.isBlock_of_begins {t : Token} (h : Expr.begins t = true) : t.isBlock = false := by
  cases t with
  | keyword k =>
    obtain rfl : k = .kwNot := by simpa [Expr.begins] using h
    rfl
  | _ => rfl

/-- A row that begins as an expression is one, unless a name is assigned. -/
theorem Piece.opening_value {t : Token} (ht : Expr.begins t = true) {tail : Row}
    (htail : tail.head?.map Lexeme.token ≠ some (.mark .assign)) (inside : Option SubroutineKind)
    (p : Position) : Piece.opening inside (⟨t, p⟩ :: tail) = Piece.value := by
  cases t with
  | keyword k =>
    obtain rfl : k = .kwNot := by simpa [Expr.begins] using ht
    rfl
  | name id => exact if_neg htail
  | mark m => cases m <;> first | rfl | cases ht
  | _ => rfl

/-- A row that begins with the target of an assignment is one. -/
theorem Piece.opening_assignment (target : Target) (us : List Token) :
    ∃ t ts, target.tokens ++ .mark .assign :: us = t :: ts ∧ t.isBlock = false ∧
      ∀ (inside : Option SubroutineKind) (p : Position) (tail : Row),
        tail.map Lexeme.token = ts →
          Piece.opening inside (⟨t, p⟩ :: tail) = Piece.simple Stmt.readAssignment := by
  obtain ⟨id, sealing, isGlobal⟩ := target
  cases sealing with
  | true => exact ⟨_, _, rfl, rfl, fun _ _ _ _ => rfl⟩
  | false =>
    cases isGlobal with
    | true => exact ⟨_, _, rfl, rfl, fun _ _ _ _ => rfl⟩
    | false =>
      refine ⟨.name id, .mark .assign :: us, rfl, rfl, fun inside p tail htail => if_pos ?_⟩
      rw [← List.head?_map, htail]
      rfl

namespace Scaffold

open LineReader Stmt Primer.Expr

variable {s : Scaffold} {rows : List Row}

/-- A row that a reader turns into a statement. -/
theorem adds_of_row {α : Type} {reader : LineReader α} {g : α → Stmt} {t : Token}
    {us : List Token} {st : Stmt} (hrows : tokenRows rows = [t :: us])
    (hblock : t.isBlock = false)
    (hopening : ∀ (p : Position) (tail : Row), tail.map Lexeme.token = us →
      Piece.opening s.inside (⟨t, p⟩ :: tail) = do let a ← reader; pure (.finished (g a)))
    (hread : ∀ l : Line, l.tokens = t :: us → ∃ a, (g a).Alike st ∧ reader.whole l = .ok a) :
    s.Adds rows st := by
  obtain ⟨p, tail, rfl, htail⟩ := tokenRows_singleton hrows
  obtain ⟨a, ha, hwhole⟩ := hread ⟨⟨t, p⟩ :: tail, 0, p⟩ (congrArg (t :: ·) htail)
  refine adds_of_opening ha hblock ?_
  rw [hopening p tail htail, whole_bind_pure, hwhole]
  rfl

theorem adds_expr (e : Expr) (hrows : tokenRows rows = (Stmt.expr e).rows) :
    s.Adds rows (.expr e) := by
  obtain ⟨t, us, hcons, hbegins⟩ := e.tokens_begin
  rw [Stmt.rows, hcons] at hrows
  refine adds_of_row (g := Stmt.expr) hrows (isBlock_of_begins hbegins)
    (fun p tail htail => Piece.opening_value hbegins ?_ _ p) fun l hl => ?_
  · -- the sign of an assignment is no token of an expression
    intro hassign
    refine e.assign_not_mem ?_
    rw [← List.head?_map, htail] at hassign
    rw [hcons]
    exact List.mem_cons_of_mem _ (List.mem_of_mem_head? hassign)
  · obtain ⟨e', he', hread⟩ := read_tokens_whole e (hl.trans hcons.symm)
    exact ⟨e', .expr he', hread⟩

theorem adds_assign (target : Target) (e : Expr) (q : Position)
    (hrows : tokenRows rows = (Stmt.assign target e q).rows) :
    s.Adds rows (.assign target e q) := by
  obtain ⟨t, us, hcons, hblock, hopening⟩ := Piece.opening_assignment target e.tokens
  rw [Stmt.rows, hcons] at hrows
  refine adds_of_row (g := id) hrows hblock
    (fun p tail htail => hopening _ p tail htail) fun l hl => ?_
  obtain ⟨e', p, he', hread⟩ := readAssignment_tokens target e (hl.trans hcons.symm)
  exact ⟨_, .assign target he' trivial, hread⟩

/-- The row of a return adds it where a return may stand. -/
theorem adds_ret {value : Option Expr} {q : Position}
    (hwf : (Stmt.ret value q).wellFormed s.inside = true)
    (hrows : tokenRows rows = (Stmt.ret value q).rows) : s.Adds rows (.ret value q) := by
  have hopening : ∀ (p : Position) (tail : Row),
      Piece.opening s.inside (⟨.keyword .kwReturn, p⟩ :: tail) =
        Piece.simple (readReturn s.inside) := fun _ _ => rfl
  cases value with
  | none =>
    obtain ⟨kind, hkind⟩ := Option.isSome_iff_exists.1 hwf
    refine adds_of_row (g := id) hrows rfl (fun p tail _ => hopening p tail) fun l hl => ?_
    rw [hkind]
    obtain ⟨p, hread⟩ := readReturn_tokens kind hl
    exact ⟨_, .retNone trivial, hread⟩
  | some e =>
    have hkind : s.inside = some .function := eq_of_beq hwf
    refine adds_of_row (g := id) hrows rfl (fun p tail _ => hopening p tail) fun l hl => ?_
    rw [hkind]
    obtain ⟨e', p, he', hread⟩ := readReturn_value_tokens e hl
    exact ⟨_, .retSome he' trivial, hread⟩

/-- The statements are read wherever the given subroutine is open. -/
def BodyReads (inside : Option SubroutineKind) (body : List Stmt) : Prop :=
  ∀ (s : Scaffold) (rows : List Row), s.inside = inside → tokenRows rows = Stmt.rowsOf body →
    s.AddsAll rows body

/-- The rows of a block are its header, those of its body and its closing row. -/
theorem tokenRows_block {t u : Token} {us vs : List Token} {inner : List (List Token)}
    (h : tokenRows rows = (t :: us) :: (inner ++ [u :: vs])) :
    ∃ p tail body q tail', rows = (⟨t, p⟩ :: tail) :: (body ++ [⟨u, q⟩ :: tail']) ∧
      tail.map Lexeme.token = us ∧ tokenRows body = inner ∧ tail'.map Lexeme.token = vs := by
  obtain ⟨p, tail, later, rfl, htail, hlater⟩ := tokenRows_cons h
  obtain ⟨body, closing, rfl, hbody, hclosing⟩ := tokenRows_append hlater
  obtain ⟨q, tail', rfl, htail'⟩ := tokenRows_singleton hclosing
  exact ⟨p, tail, body, q, tail', rfl, htail, hbody, htail'⟩

/-- A header that a reader reads. -/
theorem step_header {α : Type} {reader : LineReader α} {g : α → Frame} {t : Token} {p : Position}
    {tail : Row} {a : α} (hblock : t.isBlock = false)
    (hopening : Piece.opening s.inside (⟨t, p⟩ :: tail) = do let a ← reader; pure (.opened (g a)))
    (hread : reader.whole ⟨⟨t, p⟩ :: tail, 0, p⟩ = .ok a) :
    s.step (⟨t, p⟩ :: tail) = .ok (s.put (.opened (g a))) := by
  refine step_opening hblock ?_
  rw [hopening, whole_bind_pure, hread]
  rfl

/-- A header that a reader reads after the word that opens it. -/
theorem step_header_rest {α : Type} {reader : LineReader α} {g : Position → α → Frame} {t : Token}
    {p : Position} {tail : Row} {a : α} (hblock : t.isBlock = false)
    (hopening : Piece.opening s.inside (⟨t, p⟩ :: tail) = do
      let pos ← advancePosition
      let a ← reader
      pure (.opened (g pos a)))
    (hread : reader.whole ⟨tail, 1, p⟩ = .ok a) :
    s.step (⟨t, p⟩ :: tail) = .ok (s.put (.opened (g p a))) := by
  refine step_opening hblock ?_
  rw [hopening, whole_advancePosition, whole_bind_pure, hread]
  rfl

/-- The rows of a loop add it if those of its body add the body. -/
theorem adds_whileLoop {c : Expr} {body : List Stmt} {q : Position}
    (hbody : BodyReads s.inside body)
    (hrows : tokenRows rows = (Stmt.whileLoop c body q).rows) :
    s.Adds rows (.whileLoop c body q) := by
  obtain ⟨p, tail, inner, p', tail', rfl, htail, hinner, htail'⟩ := tokenRows_block hrows
  obtain rfl : tail' = [] := List.map_eq_nil_iff.1 htail'
  obtain ⟨c', hc', hread⟩ := readCondition_tokens c (l := ⟨tail, 1, p⟩) htail
  have hheader : s.step (⟨.keyword .kwWhile, p⟩ :: tail) =
      .ok (s.put (.opened ⟨.whileLoop c', p, []⟩)) :=
    step_header_rest (g := fun pos condition => ⟨.whileLoop condition, pos, []⟩) rfl rfl hread
  exact adds_of_block hheader (hbody _ inner rfl hinner) (fun _ => step_closing rfl rfl)
    fun _ hbody' => .whileLoop hc' hbody' trivial

theorem adds_untilLoop {c : Expr} {body : List Stmt} {q : Position}
    (hbody : BodyReads s.inside body)
    (hrows : tokenRows rows = (Stmt.untilLoop body c q).rows) :
    s.Adds rows (.untilLoop body c q) := by
  obtain ⟨p, tail, inner, p', tail', rfl, htail, hinner, htail'⟩ := tokenRows_block hrows
  obtain rfl : tail = [] := List.map_eq_nil_iff.1 htail
  obtain ⟨c', hc', hread⟩ := readUntil_tokens c p' (l := ⟨tail', 1, p'⟩) htail'
  have hheader : s.step [⟨.keyword .kwDo, p⟩] = .ok (s.put (.opened ⟨.untilLoop, p, []⟩)) :=
    step_opening rfl rfl
  exact adds_of_block hheader (hbody _ inner rfl hinner)
    (fun body' => step_closing_of_reader
      (g := fun condition => .finished (.untilLoop body' condition p)) rfl rfl hread)
    fun _ hbody' => .untilLoop hbody' hc' trivial

theorem adds_forLoop {counter : String} {first last step : Expr} {body : List Stmt} {q : Position}
    (hbody : BodyReads s.inside body)
    (hrows : tokenRows rows = (Stmt.forLoop counter first last step body q).rows) :
    s.Adds rows (.forLoop counter first last step body q) := by
  obtain ⟨p, tail, inner, p', tail', rfl, htail, hinner, htail'⟩ := tokenRows_block hrows
  obtain ⟨first', last', step', pos, hfirst, hlast, hstep, hread⟩ :=
    readForHeader_tokens counter first last step
      (l := ⟨⟨.keyword .kwFor, p⟩ :: tail, 0, p⟩) (congrArg (Token.keyword .kwFor :: ·) htail)
  have hheader : s.step (⟨.keyword .kwFor, p⟩ :: tail) =
      .ok (s.put (.opened ⟨.forLoop counter first' last' step', pos, []⟩)) :=
    step_header (g := fun h => ⟨.forLoop h.counter h.first h.last h.step, h.position, []⟩) rfl rfl
      hread
  have hname : (readClosingName counter).whole ⟨tail', 1, p'⟩ = .ok () :=
    readClosingName_tokens counter htail'
  exact adds_of_block hheader (hbody _ inner rfl hinner)
    (fun body' => step_closing_of_reader
      (g := fun _ => .finished (.forLoop counter first' last' step' body' pos)) rfl rfl hname)
    fun _ hbody' => .forLoop counter hfirst hlast hstep hbody' trivial

/-- The rows of a definition add it outside of all subroutines. -/
theorem adds_define {kind : SubroutineKind} {name : String} {params : List String}
    {body : List Stmt} {q : Position} (hinside : s.inside = none) (hnodup : params.Nodup)
    (hbody : BodyReads (some kind) body)
    (hrows : tokenRows rows = (Stmt.define kind name params body q).rows) :
    s.Adds rows (.define kind name params body q) := by
  obtain ⟨p, tail, inner, p', tail', rfl, htail, hinner, htail'⟩ := tokenRows_block hrows
  obtain rfl : tail' = [] := List.map_eq_nil_iff.1 htail'
  obtain ⟨pos, hread⟩ := readSubroutineHeader_tokens name hnodup
    (l := ⟨⟨.keyword kind.opener, p⟩ :: tail, 0, p⟩)
    (congrArg (Token.keyword kind.opener :: ·) htail)
  -- a definition stands outside of all subroutines, so its header is read
  have hheader : s.step (⟨.keyword kind.opener, p⟩ :: tail) =
      .ok (s.put (.opened ⟨.subroutine kind name params, pos, []⟩)) := by
    have hopening : Piece.opening s.inside (⟨.keyword kind.opener, p⟩ :: tail) =
        Piece.subroutine none kind := by
      rw [hinside]
      cases kind <;> rfl
    exact step_header (g := fun h => ⟨.subroutine kind h.name h.params, h.position, []⟩)
      (by cases kind <;> rfl) hopening hread
  have hclosing : ∀ body',
      step ⟨s.finished, ⟨.subroutine kind name params, pos, body'⟩ :: s.frames⟩
          [⟨.keyword kind.closer, p'⟩] =
        .ok (s.put (.finished (.define kind name params body' pos))) := by
    intro body'
    cases kind <;> exact step_closing rfl rfl
  exact adds_of_block hheader (hbody _ inner rfl hinner) hclosing
    fun _ hbody' => .define kind name params hbody' trivial

/-- The rows of further arms and of the closing word finish a conditional, wherever the given
subroutine is open: the arms before, the condition and the body of the current one are kept. -/
def ArmsRead (inside : Option SubroutineKind) (rest : Arms) : Prop :=
  ∀ (s : Scaffold) (earlier : List (Expr × List Stmt)) (c : Expr) (opened : Position)
    (body : List Stmt) (rows : List Row), s.inside = inside →
    tokenRows rows = rest.rows ++ [[.keyword .kwEndif]] →
    ∃ rest', rest'.Aligned (fun _ _ => True) rest ∧
      advance ⟨s.finished, ⟨.arm earlier c, opened, body⟩ :: s.frames⟩ rows =
        .ok (s.put (.finished (conditional earlier c body rest' opened)))

theorem armsRead_done (inside : Option SubroutineKind) : ArmsRead inside .done := by
  intro s earlier c opened body rows _ hrows
  obtain ⟨p, tail, rfl, htail⟩ := tokenRows_singleton hrows
  obtain rfl : tail = [] := List.map_eq_nil_iff.1 htail
  exact ⟨.done, .done, advance_cons_ok (step_closing rfl rfl) []⟩

/-- The last arm of a conditional is read back. -/
theorem armsRead_otherwise {inside : Option SubroutineKind} {final : List Stmt}
    (hfinal : BodyReads inside final) : ArmsRead inside (.otherwise final) := by
  intro s earlier c opened body rows hinside hrows
  obtain ⟨p, tail, inner, p', tail', rfl, htail, hinner, htail'⟩ := tokenRows_block hrows
  obtain rfl : tail = [] := List.map_eq_nil_iff.1 htail
  obtain rfl : tail' = [] := List.map_eq_nil_iff.1 htail'
  obtain ⟨final', hfinal', hadvance⟩ := hfinal
    (s.put (.opened ⟨.otherwise earlier c body, opened, []⟩)) inner hinside hinner
  have helse : step ⟨s.finished, ⟨.arm earlier c, opened, body⟩ :: s.frames⟩
      [⟨.keyword .kwElse, p⟩] =
        .ok (s.put (.opened ⟨.otherwise earlier c body, opened, []⟩)) := step_closing rfl rfl
  have hendif : step ⟨s.finished, ⟨.otherwise earlier c body, opened, final'⟩ :: s.frames⟩
      [⟨.keyword .kwEndif, p'⟩] =
        .ok (s.put (.finished (conditional earlier c body (.otherwise final') opened))) :=
    step_closing rfl rfl
  refine ⟨.otherwise final', .otherwise hfinal', ?_⟩
  rw [advance_cons_ok helse, advance_append, hadvance, put, putAll_frame]
  exact advance_cons_ok hendif []

theorem armsRead_elseif {inside : Option SubroutineKind} {d : Expr} {next : List Stmt}
    {rest : Arms} (hnext : BodyReads inside next) (hrest : ArmsRead inside rest) :
    ArmsRead inside (.elseif d next rest) := by
  intro s earlier c opened body rows hinside hrows
  rw [Arms.rows, List.cons_append, List.append_assoc] at hrows
  obtain ⟨p, tail, later, rfl, htail, hlater⟩ := tokenRows_cons hrows
  obtain ⟨inner, after, rfl, hinner, hafter⟩ := tokenRows_append hlater
  obtain ⟨d', hd', hread⟩ := readGuard_tokens d (l := ⟨tail, 1, p⟩) htail
  have helseif : step ⟨s.finished, ⟨.arm earlier c, opened, body⟩ :: s.frames⟩
      (⟨.keyword .kwElseif, p⟩ :: tail) =
        .ok (s.put (.opened ⟨.arm (earlier ++ [(c, body)]) d', opened, []⟩)) :=
    step_closing_of_reader
      (g := fun condition => .opened ⟨.arm (earlier ++ [(c, body)]) condition, opened, []⟩) rfl rfl
      hread
  obtain ⟨next', hnext', hadvance⟩ := hnext
    (s.put (.opened ⟨.arm (earlier ++ [(c, body)]) d', opened, []⟩)) inner hinside hinner
  -- the arm that was current joins the earlier ones, and the rest goes on after the new one
  obtain ⟨rest', hrest', hclose⟩ := hrest s (earlier ++ [(c, body)]) d' opened next' after hinside
    hafter
  refine ⟨.elseif d' next' rest', .elseif hd' hnext' hrest', ?_⟩
  rw [advance_cons_ok helseif, advance_append, hadvance, put, putAll_frame, ← conditional_append]
  exact hclose

/-- The rows of a conditional add it if its arms are read back. -/
theorem adds_branch {c : Expr} {body : List Stmt} {rest : Arms} {q : Position}
    (hbody : BodyReads s.inside body) (hrest : ArmsRead s.inside rest)
    (hrows : tokenRows rows = (Stmt.branch c body rest q).rows) :
    s.Adds rows (.branch c body rest q) := by
  obtain ⟨p, tail, later, rfl, htail, hlater⟩ := tokenRows_cons hrows
  obtain ⟨inner, after, rfl, hinner, hafter⟩ := tokenRows_append hlater
  obtain ⟨c', hc', hread⟩ := readGuard_tokens c (l := ⟨tail, 1, p⟩) htail
  have hheader : s.step (⟨.keyword .kwIf, p⟩ :: tail) =
      .ok (s.put (.opened ⟨.arm [] c', p, []⟩)) :=
    step_header_rest (g := fun pos condition => ⟨.arm [] condition, pos, []⟩) rfl rfl hread
  obtain ⟨body', hbody', hadvance⟩ := hbody (s.put (.opened ⟨.arm [] c', p, []⟩)) inner rfl hinner
  obtain ⟨rest', hrest', hclose⟩ := hrest s [] c' p body' after rfl hafter
  refine ⟨.branch c' body' rest' p, .branch hc' hbody' hrest' trivial, ?_⟩
  rw [advance_cons_ok hheader, advance_append, hadvance, put, putAll_frame]
  exact hclose

theorem bodyReads_nil (inside : Option SubroutineKind) : BodyReads inside [] := by
  intro s rows _ hrows
  obtain rfl : rows = [] := List.map_eq_nil_iff.1 hrows
  exact ⟨[], .nil, rfl⟩

/-- A body is read back statement by statement. -/
theorem bodyReads_cons {inside : Option SubroutineKind} {st : Stmt} {body : List Stmt}
    (hst : ∀ (s : Scaffold) (rows : List Row), s.inside = inside → tokenRows rows = st.rows →
      s.Adds rows st)
    (hbody : BodyReads inside body) : BodyReads inside (st :: body) := by
  intro s rows hinside hrows
  obtain ⟨before, after, rfl, hbefore, hafter⟩ := tokenRows_append hrows
  -- a finished statement leaves open what was open, so the rest stands in the same subroutine
  obtain ⟨st', hst', hadvance⟩ := hst s before hinside hbefore
  obtain ⟨body', hbody', hadvance'⟩ := hbody (s.put (.finished st')) after
    ((inside_put s st').trans hinside) hafter
  refine ⟨st' :: body', .cons hst' hbody', ?_⟩
  rw [advance_append, hadvance]
  exact hadvance'

end Scaffold

open Scaffold

mutual

/-- **A statement that can stand where it does is read from its rows.** -/
theorem Stmt.adds_rows {inside : Option SubroutineKind} : ∀ st : Stmt, st.wellFormed inside = true →
    ∀ (s : Scaffold) (rows : List Row), s.inside = inside → tokenRows rows = st.rows →
      s.Adds rows st
  | .expr e, _, _, _, _, hrows => adds_expr e hrows
  | .assign target e q, _, _, _, _, hrows => adds_assign target e q hrows
  | .define kind name params body q, h, s, rows, hinside, hrows => by
    simp only [Stmt.wellFormed, Bool.and_eq_true, Option.isNone_iff_eq_none,
      decide_eq_true_eq] at h
    obtain ⟨⟨hnone, hnodup⟩, hbody⟩ := h
    exact adds_define (hinside.trans hnone) hnodup (Stmt.bodyReads body hbody) hrows
  | .ret value q, h, s, rows, hinside, hrows => adds_ret (hinside ▸ h) hrows
  | .branch c body rest q, h, s, rows, hinside, hrows => by
    simp only [Stmt.wellFormed, Bool.and_eq_true] at h
    subst hinside
    exact adds_branch (Stmt.bodyReads body h.1) (Arms.armsRead rest h.2) hrows
  | .whileLoop c body q, h, s, rows, hinside, hrows => by
    subst hinside
    exact adds_whileLoop (Stmt.bodyReads body h) hrows
  | .untilLoop body c q, h, s, rows, hinside, hrows => by
    subst hinside
    exact adds_untilLoop (Stmt.bodyReads body h) hrows
  | .forLoop counter first last step body q, h, s, rows, hinside, hrows => by
    subst hinside
    exact adds_forLoop (Stmt.bodyReads body h) hrows

/-- Every well-formed body is read back. -/
theorem Stmt.bodyReads {inside : Option SubroutineKind} :
    ∀ body : List Stmt, Stmt.wellFormedAll inside body = true → BodyReads inside body
  | [], _ => bodyReads_nil inside
  | st :: body, h => by
    simp only [Stmt.wellFormedAll, Bool.and_eq_true] at h
    exact bodyReads_cons (Stmt.adds_rows st h.1) (Stmt.bodyReads body h.2)

theorem Arms.armsRead {inside : Option SubroutineKind} :
    ∀ rest : Arms, rest.wellFormed inside = true → ArmsRead inside rest
  | .done, _ => armsRead_done inside
  | .otherwise body, h => armsRead_otherwise (Stmt.bodyReads body h)
  | .elseif c body rest, h => by
    simp only [Arms.wellFormed, Bool.and_eq_true] at h
    exact armsRead_elseif (Stmt.bodyReads body h.1) (Arms.armsRead rest h.2)

end

namespace Program

/-- **A rendered program reads as itself.** Rows with the tokens of a well-formed program complete
it, up to positions. -/
theorem complete_render (p : List Stmt) (rows : List Row)
    (hp : Stmt.wellFormedAll none p = true) (hrows : tokenRows rows = Stmt.rowsOf p) :
    ∃ p', (ofRows rows).complete = .ok p' ∧ List.Forall₂ Stmt.Alike p' p := by
  obtain ⟨p', hp', hadvance⟩ := Stmt.bodyReads p hp Scaffold.empty rows rfl hrows
  refine ⟨p', complete_eq_ok_iff.2 ?_, hp'⟩
  rw [hadvance]
  exact congrArg Except.ok (putAll_done [] p')

/-- A loop: `NOT` takes the parenthesised alternative, and the difference keeps its parentheses. -/
theorem complete_render_loop :
    let row (line : Nat) (ts : List Token) : Row := ts.map fun t => ⟨t, ⟨line, 0⟩⟩
    let rows : List Row :=
      [row 0 [.keyword .kwWhile, .keyword .kwNot, .mark .openParen, .name "a", .keyword .kwOr,
          .name "b", .mark .closeParen],
        row 1 [.keyword .kwConst, .name "x", .mark .assign, .integer 2, .mark .star,
          .mark .openParen, .integer 3, .mark .minus, .name "y", .mark .closeParen],
        row 2 [.keyword .kwEndwhile]]
    let p : Position := ⟨0, 0⟩
    let condition : Expr := .unary .negation (.binary .disj (.name "a" p) (.name "b" p) p) p
    let value : Expr :=
      .binary .multiply (.literal (.integer 2) p)
        (.binary .subtract (.literal (.integer 3) p) (.name "y" p) p) p
    ∃ p', (ofRows rows).complete = .ok p' ∧
      List.Forall₂ Stmt.Alike p' [.whileLoop condition [.assign ⟨"x", true, false⟩ value p] p] :=
  complete_render _ _ rfl rfl

end Program

end Primer
