import Primer.Proofs.Progress.Walk

/-!
# Readers of a row come to an end

`Walk.EndsAs` relates a walk to a bounded reader: the walk comes to an end, with the same result or
fault and at the same place, whatever its trail was before. The relation follows the readers step
by step (`Walk.EndsAs.bind`), and where a walk reads on, the bound of the reader has to be large
enough for the lexemes that are left. Every operand takes a lexeme at least, and so does every item
between parentheses, which is part of what is said of results (`Line.Taken`).

Between two lexemes at most twelve readers are nested (`Level.nesting`), so the bounds on
expressions are never met (`Walk.endsAs_readExpr`).
-/

set_option autoImplicit false

namespace Primer

/-- A line with the rows after it. -/
def Line.under (later : List Row) (l : Line) : Cursor := ⟨l.rest :: later, l.taken, l.previous⟩

/-- At least so many lexemes of the line were taken. -/
abbrev Line.Taken {α : Type} (k : Nat) (l : Line) (_ : α) (m : Line) : Prop :=
  m.rest.length + k ≤ l.rest.length

namespace Walk

variable {origin : Cursor} {α β σ : Type}

/-! ## Walks that end as a reader does -/

/-- Whatever trail led there, the walk comes to an end as the reader does: with the same result or
fault, and where the reader stands. A result and the state after it are related as given. -/
def EndsAs (view : σ → Cursor) (x : Walk origin α) (y : EStateM Fault σ α)
    (good : α → σ → Prop) (s : σ) : Prop :=
  ∀ trail : Trail origin (view s),
    match y s with
    | .ok a s' => good a s' ∧ ∃ trail', x ⟨view s, trail⟩ = some (.ok a, ⟨view s', trail'⟩)
    | .error fault s' => ∃ trail', x ⟨view s, trail⟩ = some (.error fault, ⟨view s', trail'⟩)

section Rules

variable {view : σ → Cursor} {s : σ} {good : β → σ → Prop}

/-- After a walk that succeeds, the next one starts where it stands. -/
theorem bind_of_ok {x : Walk origin α} {f : α → Walk origin β} {a : α} {t t' : Standing origin}
    (h : x t = some (.ok a, t')) : (x >>= f) t = f a t' := by
  simp only [bind, ExceptT.bind, ExceptT.mk, StateT.bind, h, Option.bind_some, ExceptT.bindCont]

theorem bind_of_error {x : Walk origin α} {f : α → Walk origin β} {fault : Fault}
    {t t' : Standing origin} (h : x t = some (.error fault, t')) :
    (x >>= f) t = some (.error fault, t') := by
  simp only [bind, ExceptT.bind, ExceptT.mk, StateT.bind, h, Option.bind_some, ExceptT.bindCont]
  rfl

theorem endsAs_pure {b : β} (h : good b s) :
    EndsAs view (pure b : Walk origin β) (pure b) good s :=
  fun trail => ⟨h, trail, rfl⟩

theorem endsAs_throw (fault : Fault) :
    EndsAs view (throw fault : Walk origin β) (throw fault) good s :=
  fun trail => ⟨trail, rfl⟩

/-- What comes after a result starts where the first reader stands. -/
theorem EndsAs.bind {x : Walk origin α} {y : EStateM Fault σ α} {f : α → Walk origin β}
    {g : α → EStateM Fault σ β} {mid : α → σ → Prop} (hx : EndsAs view x y mid s)
    (hf : ∀ a s', mid a s' → EndsAs view (f a) (g a) good s') :
    EndsAs view (x >>= f) (y >>= g) good s := by
  intro trail
  have hfirst := hx trail
  show match EStateM.bind y g s with
    | .ok b s' => _
    | .error fault s' => _
  simp only [EStateM.bind]
  -- what is read decides how the walk goes on
  cases hread : y s with
  | ok a s' =>
    rw [hread] at hfirst
    obtain ⟨hmid, trail', hwalk⟩ := hfirst
    rw [bind_of_ok hwalk]
    exact hf a s' hmid trail'
  | error fault s' =>
    rw [hread] at hfirst
    obtain ⟨trail', hwalk⟩ := hfirst
    exact ⟨trail', bind_of_error hwalk⟩

/-- How a walk ends may be said in a weaker way. -/
theorem EndsAs.imp {x : Walk origin β} {y : EStateM Fault σ β} {good' : β → σ → Prop}
    (h : EndsAs view x y good s) (himp : ∀ b s', good b s' → good' b s') :
    EndsAs view x y good' s := by
  intro trail
  have hx := h trail
  split at hx
  · exact ⟨himp _ _ hx.1, hx.2⟩
  · exact hx

/-- Only what the walk and the reader do from here on matters. -/
theorem EndsAs.congr {x x' : Walk origin β} {y y' : EStateM Fault σ β}
    (h : EndsAs view x y good s) (hx : ∀ trail, x' ⟨view s, trail⟩ = x ⟨view s, trail⟩)
    (hy : y' s = y s) : EndsAs view x' y' good s := by
  intro trail
  rw [hy, hx]
  exact h trail

/-- A reader that starts with a look at the state. -/
theorem EndsAs.of_get {x : Walk origin β} {next : σ → EStateM Fault σ β}
    (h : EndsAs view x (next s) good s) : EndsAs view x (get >>= next) good s :=
  h.congr (fun _ => rfl) rfl

/-- A reader that looks, and leaves everything in its place. -/
theorem endsAs_look {y : EStateM Fault σ β} (f : Cursor → β) (hy : y s = .ok (f (view s)) s) :
    EndsAs view (look f : Walk origin β) y (fun b s' => b = f (view s) ∧ s' = s) s := by
  intro trail
  rw [hy]
  exact ⟨⟨rfl, rfl⟩, trail, rfl⟩

end Rules

/-! ## The steps of readers -/

section Steps

variable {later : List Row} {l : Line} {good : β → Line → Prop}

theorem endsAs_peek : EndsAs (Line.under later) (peek : Walk origin (Option Token))
    LineReader.peek (fun t m => t = l.rest.head?.map Lexeme.token ∧ m = l) l :=
  endsAs_look _ rfl

theorem endsAs_check (t : Token) : EndsAs (Line.under later) (check t : Walk origin Bool)
    (LineReader.check t)
    (fun b m => b = (l.rest.head?.map Lexeme.token == some t) ∧ m = l) l :=
  endsAs_look _ rfl

theorem endsAs_atEnd : EndsAs (Line.under later) (atEnd : Walk origin Bool) LineReader.atEnd
    (fun b m => b = l.rest.isEmpty ∧ m = l) l := by
  obtain ⟨rest, taken, previous⟩ := l
  cases rest with
  | nil => exact endsAs_look (y := LineReader.atEnd) (fun c => c.next?.isNone) rfl
  | cons x xs => exact endsAs_look (y := LineReader.atEnd) (fun c => c.next?.isNone) rfl

/-- A token is taken, if there is one. -/
theorem endsAs_advance : EndsAs (Line.under later) (advance : Walk origin (Option Lexeme))
    LineReader.advance
    (fun a m => a = none ∧ l.rest = [] ∧ m = l ∨ ∃ x, a = some x ∧ l.rest = x :: m.rest) l := by
  obtain ⟨rest, taken, previous⟩ := l
  intro trail
  cases rest with
  | nil => exact ⟨.inl ⟨rfl, rfl, rfl⟩, trail, rfl⟩
  | cons x xs => exact ⟨.inr ⟨x, rfl, rfl⟩, _, rfl⟩

theorem endsAs_failAtPrevious (cause : Cause) : EndsAs (Line.under later)
    (failAtPrevious cause : Walk origin β) (LineReader.failAtPrevious cause) good l :=
  fun trail => ⟨trail, rfl⟩

/-- After a test for a token. If it comes next the row is not used up. -/
theorem endsAs_ite_check {t : Token} {x x' : Walk origin β} {y y' : LineReader β}
    (hyes : l.rest ≠ [] → EndsAs (Line.under later) x y good l)
    (hno : EndsAs (Line.under later) x' y' good l) :
    EndsAs (Line.under later) (do if ← check t then x else x')
      (do if ← LineReader.check t then y else y') good l := by
  refine (endsAs_check t).bind ?_
  rintro _ _ ⟨rfl, rfl⟩
  split
  · next ht =>
    refine hyes fun hnil => ?_
    simp [hnil] at ht
  · exact hno

/-- A choice at the end of a row takes no token. -/
theorem endsAs_ite_atEnd {x x' : Walk origin β} {y y' : LineReader β}
    (hend : EndsAs (Line.under later) x y good l)
    (hmore : l.rest ≠ [] → EndsAs (Line.under later) x' y' good l) :
    EndsAs (Line.under later) (do if ← atEnd then x else x')
      (do if ← LineReader.atEnd then y else y') good l := by
  refine endsAs_atEnd.bind ?_
  rintro _ _ ⟨rfl, rfl⟩
  split
  · exact hend
  · next hl => exact hmore fun hnil => hl (by rw [hnil]; rfl)

theorem endsAs_advancePosition : EndsAs (Line.under later)
    (advancePosition : Walk origin Position) LineReader.advancePosition
    (fun _ m => m.rest = l.rest.tail) l := by
  obtain ⟨rest, taken, previous⟩ := l
  intro trail
  cases rest with
  | nil => exact ⟨rfl, trail, rfl⟩
  | cons x xs => exact ⟨rfl, _, rfl⟩

theorem endsAs_requireMore : EndsAs (Line.under later) (requireMore : Walk origin Unit)
    LineReader.requireMore (fun _ m => m = l) l := by
  obtain ⟨rest, taken, previous⟩ := l
  intro trail
  cases rest with
  | nil => exact ⟨trail, rfl⟩
  | cons x xs => exact ⟨rfl, trail, rfl⟩

/-- A token that is expected is taken, or the walk fails. -/
theorem endsAs_expect (t : Token) (what : Expectation) : EndsAs (Line.under later)
    (expect t what : Walk origin Position) (LineReader.expect t what) (Line.Taken 1 l) l := by
  obtain ⟨rest, taken, previous⟩ := l
  intro trail
  cases rest with
  | nil => exact ⟨trail, rfl⟩
  | cons x xs =>
    have hwalk : (expect t what : Walk origin Position)
          ⟨⟨(x :: xs) :: later, taken, previous⟩, trail⟩ =
        (if x.token = t then advancePosition
          else throw ⟨.expected what (some x.token), x.position⟩ : Walk origin Position)
            ⟨_, trail⟩ := rfl
    have hread : LineReader.expect t what ⟨x :: xs, taken, previous⟩ =
        if x.token = t then .ok x.position ⟨xs, taken + 1, x.position⟩
        else .error ⟨.expected what (some x.token), x.position⟩ ⟨x :: xs, taken, previous⟩ := rfl
    rw [hread]
    by_cases ht : x.token = t
    · rw [if_pos ht] at hwalk ⊢
      exact ⟨Nat.le_refl _, _, hwalk⟩
    · rw [if_neg ht] at hwalk ⊢
      exact ⟨trail, hwalk⟩

theorem endsAs_name (what : Expectation) : EndsAs (Line.under later)
    (name what : Walk origin (String × Position)) (LineReader.name what) (Line.Taken 1 l) l := by
  obtain ⟨rest, taken, previous⟩ := l
  intro trail
  cases rest with
  | nil => exact ⟨trail, rfl⟩
  | cons x xs =>
    obtain ⟨token, pos⟩ := x
    cases token with
    | name s => exact ⟨Nat.le_refl _, _, rfl⟩
    | _ => exact ⟨_, rfl⟩

end Steps

/-! ## Items between parentheses -/

section Items

variable {later : List Row} {item : Walk origin α} {reader : LineReader α} {k : Nat}

/-- Every item takes a lexeme, so that there are fewer of them than the bound. -/
theorem endsAs_items (hitem : ∀ l : Line, l.rest.length ≤ k →
      EndsAs (Line.under later) item reader (Line.Taken 1 l) l)
    (opened : Position) (n : Nat) : ∀ l : Line, l.rest.length ≤ k → l.rest.length < n →
      EndsAs (Line.under later) (items item opened n) (LineReader.items reader opened n)
        (Line.Taken 1 l) l := by
  induction n with
  | zero => exact fun l _ h => absurd h (Nat.not_lt_zero _)
  | succ n ih =>
    intro l hk hn
    rw [items, LineReader.items]
    refine endsAs_ite_atEnd (endsAs_throw _) fun _ => ?_
    refine (hitem l hk).bind fun x l₁ h₁ => endsAs_advance.bind ?_
    rintro _ m (⟨rfl, -, -⟩ | ⟨⟨token, pos⟩, rfl, hm⟩)
    · exact endsAs_throw _
    -- the item and what stands after it are two lexemes, so the bound on items is far off
    have htaken : m.rest.length + 2 ≤ l.rest.length := by
      simp only [Line.Taken, hm, List.length_cons] at h₁
      exact h₁
    cases token with
    | mark sign =>
      cases sign with
      | closeParen => exact endsAs_pure (by simp only [Line.Taken]; omega)
      | comma =>
        refine endsAs_atEnd.bind ?_
        rintro _ _ ⟨rfl, rfl⟩
        refine (endsAs_check _).bind ?_
        rintro _ _ ⟨rfl, rfl⟩
        dsimp only
        split
        · exact endsAs_throw _
        · refine (ih _ (by omega) (by omega)).bind fun xs l₂ h₂ => endsAs_pure ?_
          simp only [Line.Taken] at h₂ ⊢
          omega
      | _ => exact endsAs_throw _
    | _ => exact endsAs_throw _

/-- Items between parentheses are walked through with fuel for each token. -/
theorem endsAs_parenthesised {l : Line} (hitem : ∀ l : Line, l.rest.length ≤ k →
      EndsAs (Line.under later) item reader (Line.Taken 1 l) l)
    (opened : Position) {n : Nat} (hk : l.rest.length ≤ k) (hn : l.rest.length < n) :
    EndsAs (Line.under later) (parenthesised item opened n)
      (LineReader.parenthesised reader opened n) (Line.Taken 1 l) l := by
  rw [parenthesised, LineReader.parenthesised]
  refine endsAs_ite_check (fun hmore => endsAs_advance.bind ?_)
    (endsAs_items hitem opened n l hk hn)
  rintro _ m (⟨-, hnil, -⟩ | ⟨x, -, hm⟩)
  · exact absurd hnil hmore
  · exact endsAs_pure (by simp [Line.Taken, hm])

end Items

/-! ## Expressions -/

end Walk

/-- How many readers are nested between a reader of this level and the next lexeme. -/
def Level.nesting : Level → Nat
  | logic => 12
  | comparison => 9
  | sum => 7
  | product => 5
  | power => 3

namespace Walk

variable {origin : Cursor}

/-- Walks through expressions end as the readers with the given bound, if it is large enough for
what is left of the row. -/
structure ReadsWithin (origin : Cursor) (later : List Row) (n : Nat) : Prop where
  level (level : Level) (l : Line) (hn : 12 * l.rest.length + level.nesting ≤ n) :
    EndsAs (Line.under later) (readLevel n level : Walk origin Expr) (Expr.readLevel n level)
      (Line.Taken 1 l) l
  more (level : Level) (left : Expr) (l : Line) (hn : 12 * l.rest.length < n) :
    EndsAs (Line.under later) (readMore n level left : Walk origin Expr)
      (Expr.readMore n level left) (Line.Taken 0 l) l
  operand (level : Level) (l : Line) (hn : 12 * l.rest.length + level.nesting ≤ n + 1) :
    EndsAs (Line.under later) (readOperand n level : Walk origin Expr) (Expr.readOperand n level)
      (Line.Taken 1 l) l
  negation (l : Line) (hn : 12 * l.rest.length + 10 ≤ n) :
    EndsAs (Line.under later) (readNegation n : Walk origin Expr) (Expr.readNegation n)
      (Line.Taken 1 l) l
  factor (l : Line) (hn : 12 * l.rest.length < n) :
    EndsAs (Line.under later) (readFactor n : Walk origin Expr) (Expr.readFactor n)
      (Line.Taken 1 l) l
  calls (callee : Expr) (l : Line) (hn : 12 * l.rest.length < n) :
    EndsAs (Line.under later) (readCalls n callee : Walk origin Expr) (Expr.readCalls n callee)
      (Line.Taken 0 l) l

section Step

variable {later : List Row} {n : Nat} (ih : ReadsWithin origin later n)

include ih

/-- A level is walked through with twelve units of fuel for each token. -/
theorem ReadsWithin.readLevel_succ (level : Level) (l : Line)
    (hn : 12 * l.rest.length + level.nesting ≤ n + 1) :
    EndsAs (Line.under later) (readLevel (n + 1) level : Walk origin Expr)
      (Expr.readLevel (n + 1) level) (Line.Taken 1 l) l := by
  rw [readLevel, Expr.readLevel]
  have hnesting : 2 ≤ level.nesting := by cases level <;> decide
  refine (ih.operand level l hn).bind fun left l₁ h₁ => ?_
  refine (ih.more level left l₁ (by simp only [Line.Taken] at h₁; omega)).imp fun e m hm => ?_
  simp only [Line.Taken] at h₁ hm ⊢
  omega

theorem ReadsWithin.readMore_succ (level : Level) (left : Expr) (l : Line)
    (hn : 12 * l.rest.length < n + 1) :
    EndsAs (Line.under later) (readMore (n + 1) level left : Walk origin Expr)
      (Expr.readMore (n + 1) level left) (Line.Taken 0 l) l := by
  rw [readMore, Expr.readMore]
  refine endsAs_peek.bind ?_
  rintro _ m ⟨rfl, rfl⟩
  cases hop : (m.rest.head?.map Lexeme.token).bind level.operator? with
  | none => exact endsAs_pure (Nat.le_refl _)
  | some op =>
    have hmore : 0 < m.rest.length := by
      refine List.length_pos_iff.2 fun hnil => ?_
      simp [hnil] at hop
    have hnesting : level.nesting ≤ 12 := by cases level <;> decide
    -- the operator is one lexeme, which pays for the nesting of readers before the next one
    refine endsAs_advancePosition.bind fun pos l₁ h₁ => ?_
    have hlength : l₁.rest.length + 1 = m.rest.length := by
      rw [h₁, List.length_tail]
      omega
    refine endsAs_requireMore.bind ?_
    rintro _ _ rfl
    refine (ih.operand level _ (by omega)).bind fun right l₂ h₂ => ?_
    refine (ih.more level _ l₂ (by omega)).imp fun e l₃ h₃ => ?_
    omega

/-- An operand is walked through with the fuel for the level above. -/
theorem ReadsWithin.readOperand_succ (level : Level) (l : Line)
    (hn : 12 * l.rest.length + level.nesting ≤ n + 1 + 1) :
    EndsAs (Line.under later) (readOperand (n + 1) level : Walk origin Expr)
      (Expr.readOperand (n + 1) level) (Line.Taken 1 l) l := by
    cases level with
  | logic => exact ih.negation l (by simp only [Level.nesting] at hn; omega)
  | comparison => exact ih.level .sum l (by simp only [Level.nesting] at hn ⊢; omega)
  | sum => exact ih.level .product l (by simp only [Level.nesting] at hn ⊢; omega)
  | product => exact ih.level .power l (by simp only [Level.nesting] at hn ⊢; omega)
  | power => exact ih.factor l (by simp only [Level.nesting] at hn; omega)

theorem ReadsWithin.readNegation_succ (l : Line) (hn : 12 * l.rest.length + 10 ≤ n + 1) :
    EndsAs (Line.under later) (readNegation (n + 1) : Walk origin Expr) (Expr.readNegation (n + 1))
      (Line.Taken 1 l) l := by
  rw [readNegation, Expr.readNegation]
  refine endsAs_ite_check (fun hmore => ?_) (ih.level .comparison l (Nat.le_of_succ_le_succ hn))
  have hpos := List.length_pos_iff.2 hmore
  refine endsAs_advancePosition.bind fun pos m hm => endsAs_requireMore.bind ?_
  have hlength : m.rest.length + 1 = l.rest.length := by
    rw [hm, List.length_tail]
    omega
  rintro _ _ rfl
  refine (ih.negation _ (by omega)).bind fun e l₂ h₂ => endsAs_pure ?_
  omega

/-- A factor takes a token before it goes back to the lowest level. -/
theorem ReadsWithin.readFactor_succ (l : Line) (hn : 12 * l.rest.length < n + 1) :
    EndsAs (Line.under later) (readFactor (n + 1) : Walk origin Expr) (Expr.readFactor (n + 1))
      (Line.Taken 1 l) l := by
  rw [readFactor, Expr.readFactor]
  refine endsAs_advance.bind ?_
  rintro _ m (⟨rfl, -, -⟩ | ⟨⟨token, pos⟩, rfl, hm⟩)
  · exact endsAs_failAtPrevious _
  have hlength : m.rest.length + 1 = l.rest.length := by rw [hm, List.length_cons]
  -- what is read after the first lexeme is calls of a primary, or a factor after a sign
  have hprimary (e : Expr) : EndsAs (Line.under later) (readCalls n e : Walk origin Expr)
      (Expr.readCalls n e) (Line.Taken 1 l) m :=
    (ih.calls e m (by omega)).imp fun _ l₂ h₂ => by omega
  have hsign (op : UnaryOp) : EndsAs (Line.under later)
      (do requireMore; let operand ← readFactor n; pure (.unary op operand pos) : Walk origin Expr)
      (do LineReader.requireMore; let operand ← Expr.readFactor n; pure (.unary op operand pos))
      (Line.Taken 1 l) m := by
    refine endsAs_requireMore.bind ?_
    rintro _ _ rfl
    exact (ih.factor _ (by omega)).bind fun e l₂ h₂ => endsAs_pure (by omega)
  cases token with
  | keyword k => exact endsAs_throw _
  | mark sign =>
    cases sign with
    | plus => exact hsign .plus
    | minus => exact hsign .minus
    | openParen =>
      refine endsAs_requireMore.bind ?_
      rintro _ _ rfl
      refine (ih.level .logic _ (by simp only [Level.nesting]; omega)).bind fun inner l₂ h₂ => ?_
      refine (endsAs_expect _ _).bind fun _ l₃ h₃ => ?_
      exact (ih.calls inner l₃ (by omega)).imp fun _ l₄ h₄ => by omega
    | _ => exact endsAs_throw _
  | _ => exact hprimary _

theorem ReadsWithin.readCalls_succ (callee : Expr) (l : Line) (hn : 12 * l.rest.length < n + 1) :
    EndsAs (Line.under later) (readCalls (n + 1) callee : Walk origin Expr)
      (Expr.readCalls (n + 1) callee) (Line.Taken 0 l) l := by
  rw [readCalls, Expr.readCalls]
  refine endsAs_ite_check (fun hmore => ?_) (endsAs_pure (Nat.le_refl _))
  have hpos := List.length_pos_iff.2 hmore
  refine endsAs_advancePosition.bind fun pos m hm => ?_
  have hlength : m.rest.length + 1 = l.rest.length := by
    rw [hm, List.length_tail]
    omega
  have hitem (l' : Line) (hl' : l'.rest.length ≤ m.rest.length) : EndsAs (Line.under later)
      (readLevel n .logic : Walk origin Expr) (Expr.readLevel n .logic) (Line.Taken 1 l') l' :=
    ih.level .logic l' (by simp only [Level.nesting]; omega)
  refine (endsAs_parenthesised hitem pos (Nat.le_refl _) (by omega)).bind fun arguments l₂ h₂ => ?_
  exact (ih.calls _ l₂ (by omega)).imp fun _ l₃ h₃ => by omega

end Step

/-- **Expressions are read to an end.** -/
theorem readsWithin (later : List Row) (n : Nat) : ReadsWithin origin later n := by
  -- each reader calls the others with less fuel, and no fuel is never enough
  induction n with
  | zero =>
    have hnesting (level : Level) : 2 ≤ level.nesting := by cases level <;> decide
    exact ⟨fun level _ h => absurd (hnesting level) (by omega), fun _ _ _ h => absurd h (by omega),
      fun level _ h => absurd (hnesting level) (by omega), fun _ h => absurd h (by omega),
      fun _ h => absurd h (by omega), fun _ _ h => absurd h (by omega)⟩
  | succ n ih =>
    exact ⟨ih.readLevel_succ, ih.readMore_succ, ih.readOperand_succ, ih.readNegation_succ,
      ih.readFactor_succ, ih.readCalls_succ⟩

/-- The bound on expressions is never met. -/
theorem endsAs_readExpr (later : List Row) (l : Line) :
    EndsAs (Line.under later) (readExpr : Walk origin Expr) Expr.read (Line.Taken 1 l) l := by
  -- the bound depends on the line, so the readers are related on this line only
  refine ((readsWithin later (Expr.readBound l.rest.length)).level .logic l ?_).congr
    (fun _ => rfl) rfl
  simp only [Expr.readBound, Level.nesting]
  omega

/-! ## Headers -/

section Headers

variable {later : List Row} {l : Line}

theorem endsAs_readGuard : EndsAs (Line.under later) (readGuard : Walk origin Expr) Stmt.readGuard
    (fun _ _ => True) l := by
  refine endsAs_requireMore.bind ?_
  rintro _ _ rfl
  refine (endsAs_readExpr later _).bind fun condition _ _ => ?_
  exact (endsAs_expect _ _).bind fun _ _ _ => endsAs_pure trivial

theorem endsAs_readCondition : EndsAs (Line.under later) (readCondition : Walk origin Expr)
    Stmt.readCondition (fun _ _ => True) l := by
  refine endsAs_requireMore.bind ?_
  rintro _ _ rfl
  exact (endsAs_readExpr later _).imp fun _ _ _ => trivial

/-- A qualifier is one that was not there yet, so there are at most two. -/
theorem endsAs_readQualifiers (n : Nat) : ∀ (sealing isGlobal : Bool) (l : Line),
    (!sealing).toNat + (!isGlobal).toNat < n →
      EndsAs (Line.under later) (readQualifiers n sealing isGlobal : Walk origin (Bool × Bool))
        (Stmt.readQualifiers n sealing isGlobal) (fun _ _ => True) l := by
  induction n with
  | zero => exact fun _ _ _ h => absurd h (Nat.not_lt_zero _)
  | succ n ih =>
    intro sealing isGlobal l hn
    rw [readQualifiers, Stmt.readQualifiers]
    refine endsAs_peek.bind ?_
    rintro next _ ⟨-, rfl⟩
    rcases next with _ | token
    · exact endsAs_pure trivial
    cases token with
    | keyword word =>
      cases word with
      | kwConst =>
        refine endsAs_advancePosition.bind fun pos m _ => ?_
        cases sealing with
        | true => exact endsAs_throw _
        | false => exact ih true isGlobal m (by simp at hn ⊢; omega)
      | kwGlobal =>
        refine endsAs_advancePosition.bind fun pos m _ => ?_
        cases isGlobal with
        | true => exact endsAs_throw _
        | false => exact ih sealing true m (by simpa using hn)
      | _ => exact endsAs_pure trivial
    | _ => exact endsAs_pure trivial

theorem endsAs_readAssignment : EndsAs (Line.under later) (readAssignment : Walk origin Stmt)
    Stmt.readAssignment (fun _ _ => True) l := by
  refine (endsAs_readQualifiers 3 false false l (by decide)).bind ?_
  rintro ⟨sealing, isGlobal⟩ _ -
  refine (endsAs_name _).bind ?_
  rintro ⟨id, pos⟩ _ -
  refine (endsAs_expect _ _).bind fun sign _ _ => ?_
  refine endsAs_ite_atEnd (endsAs_throw _) fun _ => ?_
  exact (endsAs_readExpr later _).bind fun value _ _ => endsAs_pure trivial

theorem endsAs_readReturn (inside : Option SubroutineKind) : EndsAs (Line.under later)
    (readReturn inside : Walk origin Stmt) (Stmt.readReturn inside) (fun _ _ => True) l := by
  refine endsAs_advancePosition.bind fun pos _ _ => ?_
  cases inside with
  | none => exact endsAs_throw _
  | some kind =>
    refine endsAs_ite_atEnd (endsAs_pure trivial) fun _ => ?_
    cases kind with
    | procedure => exact endsAs_throw _
    | function => exact (endsAs_readExpr later _).bind fun value _ _ => endsAs_pure trivial

theorem endsAs_readForHeader : EndsAs (Line.under later)
    (readForHeader : Walk origin Stmt.ForHeader) Stmt.readForHeader (fun _ _ => True) l := by
  refine endsAs_advancePosition.bind fun pos _ _ => (endsAs_name _).bind ?_
  rintro ⟨counter, _⟩ _ -
  refine (endsAs_expect _ _).bind fun _ _ _ => endsAs_requireMore.bind ?_
  rintro _ _ rfl
  refine (endsAs_readExpr later _).bind fun first _ _ => ?_
  refine (endsAs_expect _ _).bind fun _ _ _ => endsAs_requireMore.bind ?_
  rintro _ _ rfl
  refine (endsAs_readExpr later _).bind fun last _ _ => ?_
  refine endsAs_ite_check (fun _ => ?_) (endsAs_pure trivial)
  refine endsAs_advance.bind fun _ _ _ => endsAs_requireMore.bind ?_
  rintro _ _ rfl
  exact (endsAs_readExpr later _).bind fun step _ _ => endsAs_pure trivial

theorem endsAs_readSubroutineHeader (inside : Option SubroutineKind) : EndsAs (Line.under later)
    (readSubroutineHeader inside : Walk origin Stmt.SubroutineHeader)
    (Stmt.readSubroutineHeader inside) (fun _ _ => True) l := by
  refine endsAs_advancePosition.bind fun pos _ _ => ?_
  cases inside with
  | some kind => exact endsAs_throw _
  | none =>
    refine (endsAs_name _).bind ?_
    rintro ⟨id, _⟩ _ -
    refine (endsAs_expect _ _).bind fun opened m _ => ?_
    have hitem (l' : Line) (_ : l'.rest.length ≤ m.rest.length) : EndsAs (Line.under later)
        (name .parameterName : Walk origin (String × Position)) (LineReader.name .parameterName)
        (Line.Taken 1 l') l' := endsAs_name _
    have hparams : EndsAs (Line.under later)
        (readParameters opened : Walk origin (List (String × Position)))
        (LineReader.parenthesised (LineReader.name .parameterName) opened (m.rest.length + 1))
        (Line.Taken 1 m) m :=
      (endsAs_parenthesised hitem opened (Nat.le_refl _) (Nat.lt_succ_self _)).congr
        (fun _ => rfl) rfl
    refine EndsAs.of_get (hparams.bind fun params _ _ => ?_)
    cases hrepeated : Stmt.duplicate? [] params with
    | some repeated => exact endsAs_throw _
    | none => exact endsAs_pure trivial

theorem endsAs_readClosingName (counter : String) : EndsAs (Line.under later)
    (readClosingName counter : Walk origin Unit) (Stmt.readClosingName counter)
    (fun _ _ => True) l := by
  refine (endsAs_name _).bind ?_
  rintro ⟨found, pos⟩ _ -
  dsimp only
  split
  · exact endsAs_throw _
  · exact endsAs_pure trivial

theorem endsAs_readUntil (word : Position) : EndsAs (Line.under later)
    (readUntil word : Walk origin Expr) (Stmt.readUntil word) (fun _ _ => True) l :=
  endsAs_ite_atEnd (endsAs_throw _) fun _ => (endsAs_readExpr later _).imp fun _ _ _ => trivial

end Headers

end Walk

end Primer
