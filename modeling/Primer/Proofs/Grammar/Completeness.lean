import Primer.Proofs.Grammar

/-!
# The readers accept the grammar

A derivation says at which precedence its row is read (`Grammar.Symbol.Reading`), so every row that
the grammar derives is read, up to positions, as the tree that it is derived for. The positions of
a tree are those of its row that open no group, close nothing and separate nothing
(`Grammar.marked`), in the same order. So the tree that is read is the derived one, and a row has
one tree at most (`Expr.read_grammar`).
-/

set_option autoImplicit false

namespace Primer

/-- The level of an operator says how strongly it binds. -/
theorem BinaryOp.precedence_level (op : BinaryOp) : op.level.precedence = op.precedence := by
  cases op <;> rfl

namespace Grammar

open Primer.Expr

/-! ## Derived rows are read -/

/-- How the rows of a symbol are read. -/
def Symbol.Reading : (s : Symbol) → List Token → s.Tree → Prop
  | .level lv, ts, e => Readable lv.precedence ts e
  | .operand lv, ts, e => Readable (lv.precedence + 1) ts e
  | .negated, ts, e => Readable 1 ts e
  | .factor, ts, e => Readable 6 ts e
  | .called, ts, e | .primary, ts, e => Readable 7 ts e
  | .arguments, ts, es => ∃ tss, ts = Token.separated tss ∧ List.Forall₂ (Readable 0) tss es
  | .items, ts, es =>
    ∃ tss, ts = Token.separated tss ∧ tss ≠ [] ∧ List.Forall₂ (Readable 0) tss es

theorem token_inParens (opening closing : Position) (xs : Row) :
    (inParens opening closing xs).map Lexeme.token = Token.inParens (xs.map Lexeme.token) := by
  simp [inParens, Token.inParens]

/-- A row that is derived reads as its tree. -/
theorem Derives.reading {s : Symbol} {xs : Row} {tree : s.Tree} (h : Derives s xs tree) :
    s.Reading (xs.map Lexeme.token) tree := by
  induction h with
  | @single level _ _ _ ih => exact ih.loosen_succ (by cases level <;> decide)
  | binary op pos _ _ ihl ihr =>
    -- the right operand binds more tightly than the operator, so chains fold to the left
    change Readable _ _ _ at ihl ihr
    change Readable _ _ _
    rw [BinaryOp.precedence_level] at ihl ihr ⊢
    rw [List.map_append]
    exact ihl.binary ihr pos
  | ofLogic _ ih => exact ih
  | ofComparison _ ih => exact ih
  | ofSum _ ih => exact ih
  | ofProduct _ ih => exact ih
  | ofPower _ ih => exact ih
  | negation pos _ ih => exact ih.negation pos
  | comparison _ ih => exact ih.loosen_succ (by decide)
  | sign op hop pos _ ih => exact ih.sign op (by rcases hop with rfl | rfl <;> decide) pos
  | unsigned _ ih => exact ih.loosen_succ (by decide)
  | callee _ ih => exact ih
  | call opening closing _ _ ihc ihes =>
    obtain ⟨tss, htss, hes⟩ := ihes
    change Readable _ _ _
    rw [List.map_append, token_inParens, htss]
    exact ihc.call hes opening
  | literal v pos => exact readable_literal v pos
  | name id pos => exact readable_name id pos
  | parens opening closing _ ih =>
    change Readable _ _ _
    rw [token_inParens]
    exact ih.inParens
  | noArguments => exact ⟨[], rfl, .nil⟩
  | someArguments _ ih =>
    obtain ⟨tss, htss, -, hes⟩ := ih
    exact ⟨tss, htss, hes⟩
  | lastItem _ ih => exact ⟨[_], rfl, List.cons_ne_nil _ _, .cons ih .nil⟩
  | @moreItems comma xs _ _ _ _ _ ih ihes =>
    obtain ⟨tss, htss, hne, hes⟩ := ihes
    refine ⟨xs.map Lexeme.token :: tss, ?_, List.cons_ne_nil _ _, .cons ih hes⟩
    obtain ⟨ts, rest, rfl⟩ := List.exists_cons_of_ne_nil hne
    rw [List.map_append, List.map_cons, htss]
    rfl

/-- A row that the grammar derives is read to its end, as the tree up to positions. -/
theorem Derives.read {l : Line} {e : Expr} (h : Chain l.rest e) :
    ∃ e', e'.Alike e ∧ LineReader.whole Expr.read l = .ok e' := by
  have hreading : Readable 0 l.tokens e := h.reading
  have hends : Ends [] := fun t ht => by cases ht
  have hbound : 12 * l.tokens.length + 12 ≤ readBound l.rest.length := by
    rw [Line.tokens, List.length_map, readBound]
    omega
  have hall : l.tokens = l.tokens ++ [] := (List.append_nil _).symm
  obtain ⟨e', m, he, hm, hread⟩ := hreading.readLevel hall hends hbound
  refine ⟨e', he, ?_⟩
  have hrest : m.rest = [] := List.map_eq_nil_iff.1 hm
  have hwhole : Expr.read l = .ok e' m := hread
  simp only [LineReader.whole, hwhole, hrest]

/-! ## The positions of a tree -/

end Grammar

mutual

/-- The positions in an expression, in the order in which they stand in its row. -/
def Expr.inOrder : Expr → List Position
  | .literal _ p | .name _ p => [p]
  | .unary _ e p => p :: e.inOrder
  | .binary _ l r p => l.inOrder ++ p :: r.inOrder
  | .call c es p => c.inOrder ++ p :: Expr.inOrderOf es

/-- The positions in some expressions, in the order in which they stand in their row. -/
def Expr.inOrderOf : List Expr → List Position
  | [] => []
  | e :: es => e.inOrder ++ Expr.inOrderOf es

end

mutual

/-- Expressions that differ in positions at most, and have the same in the same order, are equal. -/
theorem Expr.eq_of_inOrder : ∀ (e : Expr) {e' : Expr} {ps qs : List Position}, e.Alike e' →
    e.inOrder ++ ps = e'.inOrder ++ qs → e = e' ∧ ps = qs
  | .literal v p, _, _, _, .literal _ _, h => by
    cases h
    exact ⟨rfl, rfl⟩
  | .name id p, _, _, _, .name _ _, h => by
    cases h
    exact ⟨rfl, rfl⟩
  | .unary op e p, _, _, _, .unary _ he _, h => by
    obtain ⟨rfl, hrest⟩ := List.cons.inj h
    obtain ⟨rfl, rfl⟩ := Expr.eq_of_inOrder e he hrest
    exact ⟨rfl, rfl⟩
  | .binary op l r p, _, _, _, .binary _ hl hr _, h => by
    simp only [Expr.inOrder, List.append_assoc] at h
    obtain ⟨rfl, hright⟩ := Expr.eq_of_inOrder l hl h
    obtain ⟨rfl, hrest⟩ := List.cons.inj hright
    obtain ⟨rfl, rfl⟩ := Expr.eq_of_inOrder r hr hrest
    exact ⟨rfl, rfl⟩
  | .call c es p, _, _, _, .call hc hes _, h => by
    simp only [Expr.inOrder, List.append_assoc] at h
    obtain ⟨rfl, hright⟩ := Expr.eq_of_inOrder c hc h
    obtain ⟨rfl, hrest⟩ := List.cons.inj hright
    obtain ⟨rfl, rfl⟩ := Expr.eqOf_inOrder es hes hrest
    exact ⟨rfl, rfl⟩

theorem Expr.eqOf_inOrder : ∀ (es : List Expr) {es' : List Expr} {ps qs : List Position},
    List.Forall₂ Expr.Alike es es' → Expr.inOrderOf es ++ ps = Expr.inOrderOf es' ++ qs →
      es = es' ∧ ps = qs
  | [], _, _, _, .nil, h => ⟨rfl, h⟩
  | e :: es, _, _, _, .cons he hes, h => by
    simp only [Expr.inOrderOf, List.append_assoc] at h
    obtain ⟨rfl, hrest⟩ := Expr.eq_of_inOrder e he h
    obtain ⟨rfl, rfl⟩ := Expr.eqOf_inOrder es hes hrest
    exact ⟨rfl, rfl⟩

end

namespace Grammar

/-- The positions of a row at which the nodes of its tree stand. An opening parenthesis is such a
place only after an operand, where it opens the arguments of a call. -/
def marked : Bool → Row → List Position
  | _, [] => []
  | after, ⟨.mark .openParen, p⟩ :: xs => if after then p :: marked false xs else marked false xs
  | _, ⟨.mark .closeParen, _⟩ :: xs => marked true xs
  | _, ⟨.mark .comma, _⟩ :: xs => marked false xs
  | _, ⟨.integer _, p⟩ :: xs | _, ⟨.float _, p⟩ :: xs | _, ⟨.boolean _, p⟩ :: xs
  | _, ⟨.text _, p⟩ :: xs | _, ⟨.name _, p⟩ :: xs => p :: marked true xs
  | _, ⟨_, p⟩ :: xs => p :: marked false xs

/-- The positions of the trees of a symbol are those that are marked in its rows, whatever follows;
what follows arguments is their closing parenthesis. -/
def Symbol.Marks : (s : Symbol) → Row → s.Tree → Prop
  | .arguments, xs, es | .items, xs, es => ∀ closing ys,
    marked false (xs ++ ⟨.mark .closeParen, closing⟩ :: ys) = Expr.inOrderOf es ++ marked true ys
  | .level _, xs, e | .operand _, xs, e | .negated, xs, e | .factor, xs, e | .called, xs, e
  | .primary, xs, e => ∀ ys, marked false (xs ++ ys) = e.inOrder ++ marked true ys

/-- The position of a binary operator is marked. -/
theorem marked_binary (op : BinaryOp) (after : Bool) (pos : Position) (xs : Row) :
    marked after (⟨op.token, pos⟩ :: xs) = pos :: marked false xs := by
  cases op with
  | compare c => cases c <;> rfl
  | _ => rfl

theorem marked_unary (op : UnaryOp) (after : Bool) (pos : Position) (xs : Row) :
    marked after (⟨op.token, pos⟩ :: xs) = pos :: marked false xs := by
  cases op <;> rfl

/-- The positions of a derived tree are those that are marked in its row. -/
theorem Derives.marks {s : Symbol} {xs : Row} {tree : s.Tree} (h : Derives s xs tree) :
    s.Marks xs tree := by
  induction h with
  | single _ ih | ofLogic _ ih | ofComparison _ ih | ofSum _ ih | ofProduct _ ih | ofPower _ ih
  | comparison _ ih | unsigned _ ih | callee _ ih | someArguments _ ih => exact ih
  | binary op pos _ _ ihl ihr =>
    intro zs
    rw [List.append_assoc, ihl, List.cons_append, marked_binary, ihr, Expr.inOrder,
      List.append_assoc]
    rfl
  | negation pos _ ih =>
    intro zs
    exact congrArg (pos :: ·) (ih zs)
  | sign op hop pos _ ih =>
    intro zs
    rw [List.cons_append, marked_unary, ih]
    rfl
  | @call opening closing xs ys c es _ _ ihc ihes =>
    intro zs
    -- after the callee the parenthesis opens arguments, so it is marked
    have hsplit : xs ++ inParens opening closing ys ++ zs =
        xs ++ ⟨.mark .openParen, opening⟩ :: (ys ++ ⟨.mark .closeParen, closing⟩ :: zs) := by
      simp [inParens]
    have hopen : marked true (⟨.mark .openParen, opening⟩ ::
        (ys ++ ⟨.mark .closeParen, closing⟩ :: zs)) =
          opening :: (Expr.inOrderOf es ++ marked true zs) := by
      rw [← ihes closing zs]
      rfl
    rw [hsplit, ihc, hopen, Expr.inOrder, List.append_assoc]
    rfl
  | literal v pos =>
    intro zs
    cases v <;> rfl
  | name id pos =>
    intro zs
    rfl
  | @parens opening closing xs e _ ih =>
    intro zs
    -- where an operand is due the parenthesis opens a group, which has no node
    have hsplit : inParens opening closing xs ++ zs =
        ⟨.mark .openParen, opening⟩ :: (xs ++ ⟨.mark .closeParen, closing⟩ :: zs) := by
      simp [inParens]
    rw [hsplit]
    exact ih _
  | noArguments =>
    intro closing zs
    rfl
  | lastItem _ ih =>
    intro closing zs
    rw [ih, Expr.inOrderOf, Expr.inOrderOf, List.append_nil]
    rfl
  | @moreItems comma xs ys e es _ _ ih ihes =>
    intro closing zs
    have hcomma : marked true (⟨.mark .comma, comma⟩ ::
        (ys ++ ⟨.mark .closeParen, closing⟩ :: zs)) = Expr.inOrderOf es ++ marked true zs :=
      ihes closing zs
    rw [List.append_assoc, List.cons_append, ih, hcomma, Expr.inOrderOf, List.append_assoc]

end Grammar

namespace Expr

open Grammar

/-- Trees of one row that differ in positions at most are equal. -/
theorem eq_of_chain {xs : Row} {e e' : Expr} (h : Chain xs e) (h' : Chain xs e')
    (halike : e'.Alike e) : e' = e := by
  have hmarks : marked false (xs ++ []) = e.inOrder ++ marked true [] := h.marks []
  have hmarks' : marked false (xs ++ []) = e'.inOrder ++ marked true [] := h'.marks []
  exact (eq_of_inOrder e' halike (hmarks'.symm.trans hmarks)).1

/-- What is read from a line is an expression of the grammar. -/
theorem takes_read (l : Line) : LineReader.Takes Chain Expr.read l := by
  have h := (sound (readBound l.rest.length)).level .logic l
  -- the bound depends on the line, so the readers agree on this line only
  have hread : Expr.read l = Expr.readLevel (readBound l.rest.length) .logic l := rfl
  unfold LineReader.Takes at h ⊢
  rw [hread]
  exact h

/-- What is read from a whole row is what the grammar derives, with all positions. -/
theorem whole_read_iff (l : Line) (e : Expr) :
    LineReader.whole Expr.read l = .ok e ↔ Chain l.rest e := by
  constructor
  · intro h
    rcases (takes_read l).whole with ⟨e', hread, he'⟩ | ⟨fault, hread, -⟩
    · obtain rfl := Except.ok.inj (h.symm.trans hread)
      exact he'
    · cases h.symm.trans hread
  · intro h
    -- the tree that is read has the shape of the derived one, and it is derived itself
    obtain ⟨e', halike, hread⟩ := h.read
    rcases (takes_read l).whole with ⟨e'', hread', he''⟩ | ⟨fault, hread', -⟩
    · obtain rfl := Except.ok.inj (hread.symm.trans hread')
      rw [hread, eq_of_chain h he'' halike]
    · cases hread.symm.trans hread'

/-- **The readers accept the documented grammar, and build its one tree.** For every row, an
expression is read from the whole row if and only if the grammar derives the row for it, with the
same positions. On every row that the grammar derives for no expression, reading fails because of
the grammar, and not because of the end of the input. No row is derived for two expressions. -/
theorem read_grammar (l : Line) :
    (∀ e, LineReader.whole Expr.read l = .ok e ↔ Chain l.rest e) ∧
      ((∀ e, ¬ Chain l.rest e) → ∃ fault, LineReader.whole Expr.read l = .error fault ∧
        fault.diagnostic.family = .grammar false) ∧
      ∀ e e', Chain l.rest e → Chain l.rest e' → e = e' := by
  refine ⟨whole_read_iff l, fun hnone => ?_, fun e e' h h' => ?_⟩
  · rcases (takes_read l).whole with ⟨e, -, he⟩ | hfault
    · exact absurd he (hnone e)
    · exact hfault
  · have hread := (whole_read_iff l e).2 h
    exact Except.ok.inj (hread.symm.trans ((whole_read_iff l e').2 h'))

/-- A sign before a call binds more loosely than the call and more tightly than `^`, and no `NOT`
stands to the right of a comparison. -/
theorem read_grammar_sign :
    let spot (n : Nat) : Position := ⟨0, n⟩
    let sign : Line := ⟨[⟨.mark .minus, spot 0⟩, ⟨.name "f", spot 1⟩, ⟨.mark .openParen, spot 2⟩,
      ⟨.mark .closeParen, spot 3⟩, ⟨.mark .caret, spot 4⟩, ⟨.integer 2, spot 5⟩], 0, spot 0⟩
    let right : Line := ⟨[⟨.name "a", spot 0⟩, ⟨.mark .equal, spot 2⟩, ⟨.keyword .kwNot, spot 5⟩,
      ⟨.name "b", spot 9⟩], 0, spot 0⟩
    let tree : Expr := .binary .power (.unary .minus (.call (.name "f" (spot 1)) [] (spot 2)) (spot 0))
      (.literal (.integer 2) (spot 5)) (spot 4)
    (∀ e, Chain sign.rest e ↔ e = tree) ∧ (∀ e, ¬ Chain right.rest e) ∧
      ∃ fault, LineReader.whole Expr.read right = .error fault ∧
        fault.diagnostic.family = .grammar false := by
  intro spot sign right tree
  have hsign : LineReader.whole Expr.read sign = .ok tree := by rfl
  have hright : LineReader.whole Expr.read right =
      .error ⟨.unexpectedToken (.keyword .kwNot), spot 5⟩ := by rfl
  obtain ⟨hiff, -, hunique⟩ := read_grammar sign
  obtain ⟨hiff', hnone, -⟩ := read_grammar right
  have hstuck : ∀ e, ¬ Chain right.rest e := by
    intro e he
    cases hright.symm.trans ((hiff' e).2 he)
  refine ⟨fun e => ⟨fun he => hunique e tree he ((hiff tree).1 hsign), ?_⟩, hstuck, hnone hstuck⟩
  rintro rfl
  exact (hiff tree).1 hsign

end Expr

end Primer
