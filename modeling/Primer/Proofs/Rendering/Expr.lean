import Primer.Proofs.Aligned
import Primer.Proofs.Rendering

/-!
# Reading rendered expressions

Readers see a line through its tokens, so what they do on rendered tokens is stated on
`Line.tokens`. Each precedence has its own way of reading (`Expr.Reads`): a chain of operators of
one level is read up to the point where the loop over further operators takes over, and a callee up
to the loop over argument lists. What is read at a precedence is read at every looser one
(`Expr.Readable.loosen`), each construct is read at its own precedence, and so a rendered
expression reads as itself (`Expr.readable`).

The bound on the recursion is twelve for each token: that many readers are nested between two of
them.
-/

set_option autoImplicit false

namespace Primer

/-- The tokens of the unread rest. -/
def Line.tokens (l : Line) : List Token := l.rest.map Lexeme.token

/-- The expressions are equal up to positions. -/
abbrev Expr.Alike : Expr → Expr → Prop := Expr.Aligned fun _ _ => True

/-! ## Readers on tokens -/

namespace LineReader

variable {α β : Type} {l : Line} {t : Token} {us : List Token}

/-- After a reader that succeeds, the next one starts from its line. -/
theorem bind_of_ok {x : LineReader α} {a : α} {m : Line} (h : x l = .ok a m)
    (next : α → LineReader β) : (x >>= next) l = next a m := by
  show EStateM.bind x next l = _
  simp only [EStateM.bind, h]

theorem peek_eq (l : Line) : peek l = .ok l.tokens.head? l := by
  simp only [peek, Line.tokens, List.head?_map]

theorem check_eq (t : Token) (l : Line) : check t l = .ok (l.tokens.head? == some t) l := by
  simp only [check, Line.tokens, List.head?_map]

theorem atEnd_eq (l : Line) : atEnd l = .ok l.tokens.isEmpty l := by
  simp only [atEnd, Line.tokens, List.isEmpty_map]

theorem rest_of_tokens (h : l.tokens = t :: us) :
    ∃ p xs, l.rest = ⟨t, p⟩ :: xs ∧ xs.map Lexeme.token = us := by
  obtain ⟨⟨_, p⟩, xs, hrest, rfl, hxs⟩ := List.map_eq_cons_iff.1 h
  exact ⟨p, xs, hrest, hxs⟩

theorem advance_of_tokens (h : l.tokens = t :: us) :
    ∃ p m, advance l = .ok (some ⟨t, p⟩) m ∧ m.tokens = us := by
  obtain ⟨p, xs, hrest, hxs⟩ := rest_of_tokens h
  exact ⟨p, ⟨xs, l.taken + 1, p⟩, by simp only [advance, hrest], hxs⟩

theorem advancePosition_of_tokens (h : l.tokens = t :: us) :
    ∃ p m, advancePosition l = .ok p m ∧ m.tokens = us := by
  obtain ⟨p, xs, hrest, hxs⟩ := rest_of_tokens h
  exact ⟨p, ⟨xs, l.taken + 1, p⟩, by simp only [advancePosition, hrest], hxs⟩

theorem requireMore_of_tokens (h : l.tokens = t :: us) : requireMore l = .ok () l := by
  obtain ⟨p, xs, hrest, -⟩ := rest_of_tokens h
  simp only [requireMore, hrest]

theorem expect_of_tokens (what : Expectation) (h : l.tokens = t :: us) :
    ∃ p m, expect t what l = .ok p m ∧ m.tokens = us := by
  obtain ⟨p, xs, hrest, hxs⟩ := rest_of_tokens h
  exact ⟨p, ⟨xs, l.taken + 1, p⟩, by simp only [expect, hrest, if_true], hxs⟩

theorem name_of_tokens (what : Expectation) {id : String} (h : l.tokens = .name id :: us) :
    ∃ p m, LineReader.name what l = .ok (id, p) m ∧ m.tokens = us := by
  obtain ⟨p, xs, hrest, hxs⟩ := rest_of_tokens h
  exact ⟨p, ⟨xs, l.taken + 1, p⟩, by simp only [LineReader.name, hrest], hxs⟩

end LineReader

/-! ## What may follow -/

/-- The precedence of the operators of a level. -/
def Level.precedence : Level → Nat
  | logic => 0
  | comparison => 2
  | sum => 3
  | product => 4
  | power => 5

/-- How much of the bound the readers above the first token take. -/
def Level.rank : Level → Nat
  | logic => 12
  | comparison => 9
  | sum => 7
  | product => 5
  | power => 3

/-- A token is an operator of one level at most. -/
theorem Level.operator?_unique {level level' : Level} {t : Token} {op op' : BinaryOp}
    (h : level.operator? t = some op) (h' : level'.operator? t = some op') : level = level' := by
  revert h h'
  fun_cases Level.operator? level t <;> intro h h' <;> cases level' <;>
    first | rfl | cases h' | cases h

/-- Every operator is read on the level of its precedence. -/
theorem Level.operator?_token (op : BinaryOp) :
    ∃ level : Level, level.precedence = op.precedence ∧ level.operator? op.token = some op := by
  cases op with
  | conj | disj => exact ⟨.logic, rfl, rfl⟩
  | compare c => cases c <;> exact ⟨.comparison, rfl, rfl⟩
  | add | subtract => exact ⟨.sum, rfl, rfl⟩
  | multiply | divide | modulo | quotient => exact ⟨.product, rfl, rfl⟩
  | power => exact ⟨.power, rfl, rfl⟩

namespace Expr

open LineReader

/-- No operator that binds more tightly than the precedence follows, and no argument list. -/
def Follows (p : Nat) (us : List Token) : Prop :=
  ∀ t ∈ us.head?, t ≠ .mark .openParen ∧
    ∀ (level : Level) (op : BinaryOp), level.operator? t = some op → level.precedence ≤ p

/-- No operator follows, and no argument list. -/
def Ends (us : List Token) : Prop :=
  ∀ t ∈ us.head?, t ≠ .mark .openParen ∧ ∀ level : Level, level.operator? t = none

/-- What ends an expression may follow any part of it. -/
theorem Ends.follows {us : List Token} (h : Ends us) (p : Nat) : Follows p us := by
  intro t ht
  refine ⟨(h t ht).1, fun level op hop => ?_⟩
  rw [(h t ht).2 level] at hop
  cases hop

/-- What may follow a loose expression may follow a tight one. -/
theorem Follows.mono {p q : Nat} {us : List Token} (h : Follows p us) (hpq : p ≤ q) :
    Follows q us := by
  intro t ht
  exact ⟨(h t ht).1, fun level op hop => Nat.le_trans ((h t ht).2 level op hop) hpq⟩

/-- What may follow is no operator that binds more strongly. -/
theorem Follows.operator?_eq_none {p : Nat} {us : List Token} (h : Follows p us) {level : Level}
    (hp : p < level.precedence) : ∀ t ∈ us.head?, level.operator? t = none := by
  intro t ht
  cases hop : level.operator? t with
  | none => rfl
  | some op =>
    have hle := (h t ht).2 level op hop
    omega

/-- Without an opening parenthesis, there is no further argument list. -/
theorem readCalls_stop {n : Nat} {e : Expr} {l : Line}
    (h : ∀ t ∈ l.tokens.head?, t ≠ .mark .openParen) (hn : 0 < n) :
    readCalls n e l = .ok e l := by
  obtain ⟨n, rfl⟩ : ∃ m, n = m + 1 := ⟨n - 1, by omega⟩
  have hcheck : check (.mark .openParen) l = .ok false l := by
    rw [check_eq]
    cases hhead : l.tokens.head? with
    | none => rfl
    | some t => simp [h t hhead]
  rw [readCalls, bind_of_ok hcheck]
  rfl

/-- Without an operator of the level, a left operand is all there is. -/
theorem readMore_stop {n : Nat} {level : Level} {e : Expr} {l : Line}
    (h : ∀ t ∈ l.tokens.head?, level.operator? t = none) (hn : 0 < n) :
    readMore n level e l = .ok e l := by
  obtain ⟨n, rfl⟩ : ∃ m, n = m + 1 := ⟨n - 1, by omega⟩
  have hnone : l.tokens.head?.bind level.operator? = none := by
    cases hhead : l.tokens.head? with
    | none => rfl
    | some t => exact h t hhead
  rw [readMore, bind_of_ok (peek_eq l), hnone]
  rfl

/-! ## Ways of reading -/

/-- With enough of the bound, the reader takes exactly the tokens, and gives the expression. -/
def ReadsBy (reader : Nat → LineReader Expr) (rank : Nat) (follow : List Token → Prop)
    (ts : List Token) (e : Expr) : Prop :=
  ∀ (n : Nat) (l : Line) (us : List Token), l.tokens = ts ++ us → follow us →
    12 * ts.length + rank ≤ n →
    ∃ e' m, e'.Alike e ∧ m.tokens = us ∧ reader n l = .ok e' m

/-- With enough of the bound, the reader takes exactly the tokens, and goes on with the loop. -/
def ChainsTo (reader : Nat → LineReader Expr) (loop : Nat → Expr → LineReader Expr) (rank : Nat)
    (follow : List Token → Prop) (ts : List Token) (e : Expr) : Prop :=
  ∀ (n : Nat) (l : Line) (us : List Token), l.tokens = ts ++ us → follow us →
    12 * ts.length + rank ≤ n →
    ∃ k e' m, k ≤ ts.length + 1 ∧ e'.Alike e ∧ m.tokens = us ∧
      reader n l = loop (n - k) e' m

/-- Read as a primary with its argument lists. -/
def ReadsPrimary : List Token → Expr → Prop :=
  ChainsTo readFactor readCalls 1 fun _ => True

/-- Read as a signed factor. -/
def ReadsFactor : List Token → Expr → Prop :=
  ReadsBy readFactor 1 (Follows 6)

/-- Read as operands and operators of a level. -/
def ReadsChain (level : Level) : List Token → Expr → Prop :=
  ChainsTo (readLevel · level) (readMore · level) level.rank (Follows level.precedence)

/-- Read as an operand of a level. -/
def ReadsOperand (level : Level) : List Token → Expr → Prop :=
  ReadsBy (readOperand · level) (level.rank - 1) (Follows level.precedence)

/-- Read as a comparison after any number of `NOT`. -/
def ReadsNegation : List Token → Expr → Prop :=
  ReadsBy readNegation 10 (Follows 1)

/-- How tokens are read at a precedence. -/
def Reads : Nat → List Token → Expr → Prop
  | 0 => ReadsChain .logic
  | 1 => ReadsNegation
  | 2 => ReadsChain .comparison
  | 3 => ReadsChain .sum
  | 4 => ReadsChain .product
  | 5 => ReadsChain .power
  | 6 => ReadsFactor
  | _ => ReadsPrimary

/-- The tokens that an expression can begin with. -/
def begins : Token → Bool
  | .integer _ | .float _ | .boolean _ | .text _ | .name _ => true
  | .keyword k => k == .kwNot
  | .mark m => m == .plus || m == .minus || m == .openParen

/-- The tokens are read as the expression at the precedence. Only a `NOT` begins with that word. -/
structure Readable (p : Nat) (ts : List Token) (e : Expr) : Prop where
  begins : ∃ t us, ts = t :: us ∧ begins t = true ∧ (2 ≤ p → t ≠ .keyword .kwNot)
  reads : Reads p ts e

/-! ## From a tighter reader to a looser one -/

/-- A primary that no argument list follows is a factor. -/
theorem ReadsPrimary.factor {ts : List Token} {e : Expr} (h : ReadsPrimary ts e) (hts : ts ≠ []) :
    ReadsFactor ts e := by
  intro n l us hl hus hn
  have hlength := List.length_pos_iff.2 hts
  obtain ⟨k, e', m, hk, he, hm, hread⟩ := h n l us hl trivial hn
  -- no argument list follows, so the loop over them stops at once
  refine ⟨e', m, he, hm, ?_⟩
  rw [hread]
  exact readCalls_stop (fun t ht => (hus t (by rw [← hm]; exact ht)).1) (by omega)

/-- A factor is an operand of the highest level. -/
theorem ReadsFactor.operand {ts : List Token} {e : Expr} (h : ReadsFactor ts e) :
    ReadsOperand .power ts e := by
  intro n l us hl hus hn
  obtain ⟨n, rfl⟩ : ∃ j, n = j + 1 := ⟨n - 1, by simp only [Level.rank] at hn; omega⟩
  simp only [Level.rank] at hn
  exact h n l us hl (hus.mono (by decide)) (by omega)

theorem ReadsNegation.operand {ts : List Token} {e : Expr} (h : ReadsNegation ts e) :
    ReadsOperand .logic ts e := by
  intro n l us hl hus hn
  obtain ⟨n, rfl⟩ : ∃ j, n = j + 1 := ⟨n - 1, by simp only [Level.rank] at hn; omega⟩
  simp only [Level.rank] at hn
  exact h n l us hl (hus.mono (by decide)) (by omega)

/-- A chain of a level is read to its end if no operator of the level follows. -/
theorem ReadsChain.readLevel {level : Level} {ts : List Token} {e : Expr}
    (h : ReadsChain level ts e) (hts : ts ≠ []) {n : Nat} {l : Line} {us : List Token}
    (hl : l.tokens = ts ++ us) (hus : Follows level.precedence us)
    (hstop : ∀ t ∈ us.head?, level.operator? t = none) (hn : 12 * ts.length + level.rank ≤ n) :
    ∃ e' m, e'.Alike e ∧ m.tokens = us ∧ Expr.readLevel n level l = .ok e' m := by
  have hlength := List.length_pos_iff.2 hts
  obtain ⟨k, e', m, hk, he, hm, hread⟩ := h n l us hl hus hn
  refine ⟨e', m, he, hm, hread.trans ?_⟩
  exact readMore_stop (by rw [hm]; exact hstop) (by omega)

/-- The operands of a level are the chains of the next tighter one. -/
theorem ReadsChain.operand {level tighter : Level} {ts : List Token} {e : Expr}
    (h : ReadsChain tighter ts e) (hts : ts ≠ [])
    (hread : ∀ n, readOperand (n + 1) level = Expr.readLevel n tighter)
    (hprecedence : level.precedence < tighter.precedence)
    (hrank : tighter.rank + 2 = level.rank) : ReadsOperand level ts e := by
  intro n l us hl hus hn
  obtain ⟨n, rfl⟩ : ∃ j, n = j + 1 := ⟨n - 1, by omega⟩
  show ∃ e' m, e'.Alike e ∧ m.tokens = us ∧ readOperand (n + 1) level l = .ok e' m
  rw [hread]
  exact h.readLevel hts hl (hus.mono (Nat.le_of_lt hprecedence))
    (hus.operator?_eq_none hprecedence) (by omega)

/-- One operand is a chain of its level. -/
theorem ReadsOperand.chain {level : Level} {ts : List Token} {e : Expr}
    (h : ReadsOperand level ts e) : ReadsChain level ts e := by
  intro n l us hl hus hn
  have hrank : 3 ≤ level.rank := by cases level <;> decide
  obtain ⟨n, rfl⟩ : ∃ j, n = j + 1 := ⟨n - 1, by omega⟩
  obtain ⟨e', m, he, hm, hread⟩ := h n l us hl hus (by omega)
  refine ⟨1, e', m, by omega, he, hm, ?_⟩
  show Expr.readLevel (n + 1) level l = readMore n level e' m
  rw [Expr.readLevel, bind_of_ok hread]

/-- A comparison that does not begin with a negation may stand where one may. -/
theorem ReadsChain.negation {ts : List Token} {e : Expr} (h : ReadsChain .comparison ts e)
    (hts : ts ≠ []) (hnot : ∀ t ∈ ts.head?, t ≠ .keyword .kwNot) : ReadsNegation ts e := by
  intro n l us hl hus hn
  obtain ⟨n, rfl⟩ : ∃ j, n = j + 1 := ⟨n - 1, by omega⟩
  have hcheck : check (.keyword .kwNot) l = .ok false l := by
    obtain ⟨t, rest, rfl⟩ := List.exists_cons_of_ne_nil hts
    rw [check_eq, hl]
    simp [hnot t rfl]
  rw [readNegation, bind_of_ok hcheck]
  exact h.readLevel hts hl (hus.mono (by decide))
    (hus.operator?_eq_none (by decide)) (by simp only [Level.rank]; omega)

/-- No expression is written without tokens. -/
theorem Readable.ne_nil {p : Nat} {ts : List Token} {e : Expr} (h : Readable p ts e) : ts ≠ [] := by
  obtain ⟨t, us, rfl, -⟩ := h.begins
  simp

theorem Readable.requireMore {p : Nat} {ts us : List Token} {e : Expr} (h : Readable p ts e)
    {l : Line} (hl : l.tokens = ts ++ us) : LineReader.requireMore l = .ok () l := by
  obtain ⟨t, rest, rfl, -⟩ := h.begins
  exact requireMore_of_tokens hl

/-- What binds more tightly than a level is an operand of it. -/
theorem Readable.operand (level : Level) {ts : List Token} {e : Expr}
    (h : Readable (level.precedence + 1) ts e) : ReadsOperand level ts e := by
  have hts := h.ne_nil
  cases level with
  | logic => exact ReadsNegation.operand h.reads
  | comparison =>
    have hread : ReadsChain .sum ts e := h.reads
    exact hread.operand hts (fun _ => rfl) (by decide) rfl
  | sum =>
    have hread : ReadsChain .product ts e := h.reads
    exact hread.operand hts (fun _ => rfl) (by decide) rfl
  | product =>
    have hread : ReadsChain .power ts e := h.reads
    exact hread.operand hts (fun _ => rfl) (by decide) rfl
  | power => exact ReadsFactor.operand h.reads

/-- An expression may be read one level below the one that it needs. -/
theorem Readable.loosen_succ {p : Nat} {ts : List Token} {e : Expr} (h : Readable (p + 1) ts e)
    (hp : p + 1 ≤ 7) : Readable p ts e := by
  have hts := h.ne_nil
  obtain ⟨t, us, hcons, hbegins, hnot⟩ := h.begins
  refine ⟨⟨t, us, hcons, hbegins, fun h2 => hnot (by omega)⟩, ?_⟩
  -- the readers of the levels and of `NOT` call each other in the order of the precedences
  match p, hp with
  | 0, _ => exact (Readable.operand .logic h).chain
  | 1, _ =>
    have hread : ReadsChain .comparison ts e := h.reads
    refine hread.negation hts fun x hx => ?_
    rw [hcons] at hx
    obtain rfl : t = x := by simpa using hx
    exact hnot (by omega)
  | 2, _ => exact (Readable.operand .comparison h).chain
  | 3, _ => exact (Readable.operand .sum h).chain
  | 4, _ => exact (Readable.operand .product h).chain
  | 5, _ => exact (Readable.operand .power h).chain
  | 6, _ => exact ReadsPrimary.factor h.reads hts

/-- What is read at a precedence is read at every looser one. -/
theorem Readable.loosen {p q : Nat} {ts : List Token} {e : Expr} (h : Readable q ts e)
    (hpq : p ≤ q) (hq : q ≤ 7) : Readable p ts e := by
  obtain ⟨d, rfl⟩ := Nat.le.dest hpq
  clear hpq
  induction d with
  | zero => exact h
  | succ d ih => exact ih (h.loosen_succ (by omega)) (by omega)

/-! ## Each construct at its own precedence -/

/-- An expression of one token is read on every level. -/
theorem readable_of_token {t : Token} {e : Expr} (hbegins : begins t = true)
    (hnot : t ≠ .keyword .kwNot)
    (h : ∀ n l p m, advance l = .ok (some ⟨t, p⟩) m →
      ∃ e', e'.Alike e ∧ readFactor (n + 1) l = readCalls n e' m) : Readable 7 [t] e := by
  refine ⟨⟨t, [], rfl, hbegins, fun _ => hnot⟩, fun n l us hl _ hn => ?_⟩
  obtain ⟨n, rfl⟩ : ∃ j, n = j + 1 := ⟨n - 1, by omega⟩
  obtain ⟨p, m, hadvance, hm⟩ := advance_of_tokens hl
  obtain ⟨e', he, hread⟩ := h n l p m hadvance
  exact ⟨1, e', m, by simp, he, hm, hread⟩

theorem readable_literal (v : Literal) (pos : Position) :
    Readable 7 [v.token] (.literal v pos) := by
  have hbegins : begins v.token = true ∧ v.token ≠ .keyword .kwNot := by
    cases v <;> exact ⟨rfl, by simp [Literal.token]⟩
  refine readable_of_token hbegins.1 hbegins.2 fun n l p m hadvance => ?_
  refine ⟨.literal v p, .literal v trivial, ?_⟩
  rw [readFactor, bind_of_ok hadvance]
  cases v <;> rfl

theorem readable_name (id : String) (pos : Position) : Readable 7 [.name id] (.name id pos) := by
  refine readable_of_token rfl (by simp) fun n l p m hadvance => ?_
  exact ⟨.name id p, .name id trivial, by rw [readFactor, bind_of_ok hadvance]⟩

/-- A token that is no operator and opens no parenthesis ends an expression. -/
theorem ends_cons {t : Token} (hparen : t ≠ .mark .openParen)
    (hoperator : ∀ level : Level, level.operator? t = none) (us : List Token) :
    Ends (t :: us) := by
  intro x hx
  obtain rfl : t = x := by simpa using hx
  exact ⟨hparen, hoperator⟩

/-- An expression that ends is read back on the lowest level. -/
theorem Readable.readLevel {ts : List Token} {e : Expr} (h : Readable 0 ts e) {n : Nat} {l : Line}
    {us : List Token} (hl : l.tokens = ts ++ us) (hus : Ends us)
    (hn : 12 * ts.length + 12 ≤ n) :
    ∃ e' m, e'.Alike e ∧ m.tokens = us ∧ Expr.readLevel n .logic l = .ok e' m := by
  have hread : ReadsChain .logic ts e := h.reads
  exact hread.readLevel h.ne_nil hl (hus.follows _) (fun x hx => (hus x hx).2 _) hn

/-- Operands in parentheses are primaries. -/
theorem Readable.inParens {ts : List Token} {e : Expr} (h : Readable 0 ts e) :
    Readable 7 (Token.inParens ts) e := by
  refine ⟨⟨_, _, rfl, rfl, by simp⟩, fun n l us hl _ hn => ?_⟩
  have hlength : (Token.inParens ts).length = ts.length + 2 := by simp [Token.inParens]
  rw [hlength] at hn ⊢
  obtain ⟨n, rfl⟩ : ∃ j, n = j + 1 := ⟨n - 1, by omega⟩
  have hl' : l.tokens = .mark .openParen :: (ts ++ (.mark .closeParen :: us)) := by
    rw [hl]
    simp [Token.inParens]
  obtain ⟨p, m, hadvance, hm⟩ := advance_of_tokens hl'
  -- the closing parenthesis ends the chain of the loosest level
  have hends : Ends (.mark .closeParen :: us) :=
    ends_cons (by simp) (fun level => by cases level <;> rfl) us
  obtain ⟨e', m₁, he, hm₁, hlevel⟩ := h.readLevel hm hends (n := n) (by omega)
  obtain ⟨q, m₂, hexpect, hm₂⟩ := expect_of_tokens .closeParen hm₁
  refine ⟨1, e', m₂, by omega, he, hm₂, ?_⟩
  rw [readFactor, bind_of_ok hadvance]
  dsimp only
  rw [bind_of_ok (h.requireMore hm), bind_of_ok hlevel, bind_of_ok hexpect]
  rfl

/-- An operand where the given precedence is asked for. -/
theorem Readable.wrapped {p q : Nat} {ts : List Token} {e : Expr} (h : Readable p ts e)
    (hp : p ≤ 7) (hq : q ≤ 7) : Readable q (Token.wrapped (p < q) ts) e := by
  by_cases hpq : p < q
  · simp only [Token.wrapped, hpq, decide_true, if_true]
    exact (h.loosen (Nat.zero_le p) hp).inParens.loosen hq (Nat.le_refl 7)
  · simp only [Token.wrapped, hpq, decide_false, Bool.false_eq_true, if_false]
    exact h.loosen (Nat.le_of_not_lt hpq) hp

/-- A negation is read back from its word and its operand. -/
theorem Readable.negation {ts : List Token} {e : Expr} (h : Readable 1 ts e) (pos : Position) :
    Readable 1 (.keyword .kwNot :: ts) (.unary .negation e pos) := by
  refine ⟨⟨_, ts, rfl, rfl, by simp⟩, fun n l us hl hus hn => ?_⟩
  rw [List.length_cons] at hn
  obtain ⟨n, rfl⟩ : ∃ j, n = j + 1 := ⟨n - 1, by omega⟩
  have hcheck : check (.keyword .kwNot) l = .ok true l := by
    rw [check_eq, hl]
    simp
  obtain ⟨p, m, hadvance, hm⟩ := advancePosition_of_tokens hl
  -- the operand may be a `NOT` again, so it is read by the same reader
  obtain ⟨e', m₁, he, hm₁, hread⟩ := h.reads n m us hm hus (by omega)
  refine ⟨.unary .negation e' p, m₁, .unary _ he trivial, hm₁, ?_⟩
  rw [readNegation, bind_of_ok hcheck, if_pos rfl, bind_of_ok hadvance,
    bind_of_ok (h.requireMore hm), bind_of_ok hread]
  rfl

theorem Readable.sign {ts : List Token} {e : Expr} (h : Readable 6 ts e) (op : UnaryOp)
    (hop : op ≠ .negation) (pos : Position) : Readable 6 (op.token :: ts) (.unary op e pos) := by
  have hbegins : Expr.begins op.token = true ∧ op.token ≠ .keyword .kwNot := by
    cases op with
    | negation => exact absurd rfl hop
    | _ => exact ⟨rfl, by simp [UnaryOp.token]⟩
  refine ⟨⟨op.token, ts, rfl, hbegins.1, fun _ => hbegins.2⟩, fun n l us hl hus hn => ?_⟩
  rw [List.length_cons] at hn
  obtain ⟨n, rfl⟩ : ∃ j, n = j + 1 := ⟨n - 1, by omega⟩
  obtain ⟨p, m, hadvance, hm⟩ := advance_of_tokens hl
  -- the operand is read at the same precedence, so signs may be repeated
  obtain ⟨e', m₁, he, hm₁, hread⟩ := h.reads n m us hm hus (by omega)
  refine ⟨.unary op e' p, m₁, .unary _ he trivial, hm₁, ?_⟩
  rw [readFactor, bind_of_ok hadvance]
  cases op with
  | negation => exact absurd rfl hop
  | plus | minus =>
    dsimp only [UnaryOp.token]
    rw [bind_of_ok (h.requireMore hm), bind_of_ok hread]
    rfl

/-- A chain is extended by an operator of its level and an operand. -/
theorem Readable.binary {op : BinaryOp} {ls rs : List Token} {l r : Expr}
    (hl : Readable op.precedence ls l) (hr : Readable (op.precedence + 1) rs r) (pos : Position) :
    Readable op.precedence (ls ++ op.token :: rs) (.binary op l r pos) := by
  obtain ⟨level, hlevel, hoperator⟩ := Level.operator?_token op
  rw [← hlevel] at hl hr ⊢
  obtain ⟨t, ts, hcons, hbegins, hnot⟩ := hl.begins
  refine ⟨⟨t, ts ++ op.token :: rs, by rw [hcons]; rfl, hbegins, hnot⟩, ?_⟩
  have hleft : ReadsChain level ls l := by cases level <;> exact hl.reads
  have hright : ReadsOperand level rs r := hr.operand
  suffices hchain : ReadsChain level (ls ++ op.token :: rs) (.binary op l r pos) by
    cases level <;> exact hchain
  intro n line us htokens hus hn
  have hlength : (ls ++ op.token :: rs).length = ls.length + rs.length + 1 := by simp; omega
  rw [hlength] at hn ⊢
  -- the left operand is read up to the operator, which the loop of the level takes
  have hfollows : Follows level.precedence (op.token :: (rs ++ us)) := by
    intro x hx
    obtain rfl : op.token = x := by simpa using hx
    refine ⟨fun hparen => ?_, fun level' op' hop' => ?_⟩
    · rw [hparen] at hoperator
      cases level <;> cases hoperator
    · exact Nat.le_of_eq (congrArg Level.precedence (Level.operator?_unique hop' hoperator))
  obtain ⟨k, l', m, hk, hl', hm, hread⟩ :=
    hleft n line (op.token :: (rs ++ us)) (by rw [htokens]; simp) hfollows (by omega)
  obtain ⟨j, hj⟩ : ∃ j, n - k = j + 1 := ⟨n - k - 1, by omega⟩
  obtain ⟨p, m₁, hadvance, hm₁⟩ := advancePosition_of_tokens hm
  obtain ⟨r', m₂, hr', hm₂, hoperand⟩ := hright j m₁ us hm₁ hus (by omega)
  have hpeek : m.tokens.head?.bind level.operator? = some op := by
    rw [hm]
    exact hoperator
  -- the loop goes on with the longer chain, so chains associate to the left
  refine ⟨k + 1, .binary op l' r' p, m₂, by omega, .binary op hl' hr' trivial, hm₂, ?_⟩
  rw [hread, show n - (k + 1) = j by omega]
  show readMore (n - k) level l' m = _
  rw [hj, readMore, bind_of_ok (peek_eq m), hpeek]
  dsimp only
  rw [bind_of_ok hadvance, bind_of_ok (hr.requireMore hm₁), bind_of_ok hoperand]

end Expr

/-! ## Items between parentheses -/

theorem Token.separated_cons (ts : List Token) (tss : List (List Token)) :
    ∃ vs, Token.separated (ts :: tss) = ts ++ vs := by
  cases tss with
  | nil => exact ⟨[], (List.append_nil _).symm⟩
  | cons _ _ => exact ⟨_, rfl⟩

theorem Token.length_le_separated (tss : List (List Token)) (ts : List Token) (h : ts ∈ tss) :
    ts.length ≤ (Token.separated tss).length := by
  fun_induction Token.separated tss with
  | case1 => exact absurd h List.not_mem_nil
  | case2 us =>
    obtain rfl : ts = us := by simpa using h
    exact Nat.le_refl _
  | case3 us rest hne ih =>
    rw [List.length_append, List.length_cons]
    rcases List.mem_cons.1 h with rfl | h
    · omega
    · have hrest := ih h
      omega

theorem Token.separated_length (tss : List (List Token)) (h : ∀ ts ∈ tss, ts ≠ []) :
    tss.length ≤ (Token.separated tss).length := by
  fun_induction Token.separated tss with
  | case1 => exact Nat.le_refl _
  | case2 us =>
    exact List.length_pos_iff.2 (h us List.mem_cons_self)
  | case3 us rest hne ih =>
    have hrest := ih fun ts hts => h ts (List.mem_cons_of_mem us hts)
    rw [List.length_append, List.length_cons, List.length_cons]
    omega

namespace LineReader

variable {α β : Type} {A : α → β → Prop}

/-- The item reader takes exactly the tokens, up to a comma or the closing parenthesis. -/
def ItemReads (item : LineReader α) (A : α → β → Prop) (ts : List Token) (b : β) : Prop :=
  (∃ t rest, ts = t :: rest ∧ t ≠ .mark .closeParen) ∧
    ∀ (l : Line) (t : Token) (us : List Token), l.tokens = ts ++ t :: us →
      t = .mark .comma ∨ t = .mark .closeParen →
      ∃ a m, A a b ∧ m.tokens = t :: us ∧ item l = .ok a m

theorem ItemReads.atEnd_eq {item : LineReader α} {ts : List Token} {b : β}
    (h : ItemReads item A ts b) {l : Line} {us : List Token} (hl : l.tokens = ts ++ us) :
    atEnd l = .ok false l ∧ check (.mark .closeParen) l = .ok false l := by
  obtain ⟨⟨t, rest, rfl, ht⟩, -⟩ := h
  rw [LineReader.atEnd_eq, check_eq, hl]
  exact ⟨rfl, by simp [ht]⟩

/-- Items with a comma between each two are read back, up to the closing parenthesis. -/
theorem items_of_tokens {item : LineReader α} (opened : Position) :
    ∀ {tss : List (List Token)} {bs : List β}, List.Forall₂ (ItemReads item A) tss bs → tss ≠ [] →
      ∀ {n : Nat} {l : Line} {us : List Token},
        l.tokens = Token.separated tss ++ .mark .closeParen :: us → tss.length ≤ n →
        ∃ as m, List.Forall₂ A as bs ∧ m.tokens = us ∧ items item opened n l = .ok as m := by
  intro tss bs h hne
  induction h with
  | nil => exact absurd rfl hne
  | @cons ts b tss bs hts htss ih =>
    intro n l us hl hn
    rw [List.length_cons] at hn
    obtain ⟨n, rfl⟩ : ∃ j, n = j + 1 := ⟨n - 1, by omega⟩
    cases htss with
    | nil =>
      -- the last item, which the closing parenthesis follows
      have hstart := hts.atEnd_eq hl
      obtain ⟨a, m, ha, hm, hread⟩ := hts.2 l _ us hl (Or.inr rfl)
      obtain ⟨p, m₁, hadvance, hm₁⟩ := advance_of_tokens hm
      refine ⟨[a], m₁, .cons ha .nil, hm₁, ?_⟩
      rw [items, bind_of_ok hstart.1, if_neg Bool.false_ne_true]
      dsimp only
      rw [bind_of_ok hread, bind_of_ok hadvance]
      rfl
    | @cons ts' b' tss bs hts' htss =>
      -- a further item, which a comma stands before
      have hl' : l.tokens = ts ++ .mark .comma ::
          (Token.separated (ts' :: tss) ++ .mark .closeParen :: us) := by
        rw [hl, Token.separated, List.append_assoc]
        · rfl
        · simp
      have hstart := hts.atEnd_eq hl'
      obtain ⟨a, m, ha, hm, hread⟩ := hts.2 l _ _ hl' (Or.inl rfl)
      obtain ⟨p, m₁, hadvance, hm₁⟩ := advance_of_tokens hm
      obtain ⟨vs, hseparated⟩ := Token.separated_cons ts' tss
      have hnext := hts'.atEnd_eq (l := m₁) (by rw [hm₁, hseparated, List.append_assoc])
      obtain ⟨as, m₂, has, hm₂, hitems⟩ := ih (by simp) (n := n) hm₁ (by omega)
      refine ⟨a :: as, m₂, .cons ha has, hm₂, ?_⟩
      rw [items, bind_of_ok hstart.1, if_neg Bool.false_ne_true]
      dsimp only
      rw [bind_of_ok hread, bind_of_ok hadvance]
      dsimp only
      rw [bind_of_ok hnext.1, bind_of_ok hnext.2]
      simp only [Bool.or_false, Bool.false_eq_true, if_false]
      rw [bind_of_ok hitems]
      rfl

theorem parenthesised_of_tokens {item : LineReader α} (opened : Position)
    {tss : List (List Token)} {bs : List β} (h : List.Forall₂ (ItemReads item A) tss bs)
    {n : Nat} {l : Line} {us : List Token}
    (hl : l.tokens = Token.separated tss ++ .mark .closeParen :: us) (hn : tss.length ≤ n) :
    ∃ as m, List.Forall₂ A as bs ∧ m.tokens = us ∧ parenthesised item opened n l = .ok as m := by
  cases h with
  | nil =>
    -- no items, and the parenthesis is closed at once
    have hcheck : check (.mark .closeParen) l = .ok true l := by
      rw [check_eq, hl]
      simp [Token.separated]
    obtain ⟨p, m, hadvance, hm⟩ := advance_of_tokens hl
    refine ⟨[], m, .nil, hm, ?_⟩
    rw [parenthesised, bind_of_ok hcheck, if_pos rfl, bind_of_ok hadvance]
    rfl
  | @cons ts b tss bs hts htss =>
    obtain ⟨vs, hseparated⟩ := Token.separated_cons ts tss
    have hcheck := (hts.atEnd_eq (l := l) (by rw [hl, hseparated, List.append_assoc])).2
    obtain ⟨as, m, has, hm, hitems⟩ := items_of_tokens opened (.cons hts htss) (by simp) hl hn
    refine ⟨as, m, has, hm, ?_⟩
    rw [parenthesised, bind_of_ok hcheck, if_neg Bool.false_ne_true]
    exact hitems

end LineReader

namespace Expr

open LineReader

/-- Arguments are read back one by one. -/
theorem itemReads_arguments {tss : List (List Token)} {es : List Expr}
    (h : List.Forall₂ (Readable 0) tss es) {n : Nat}
    (hn : ∀ ts ∈ tss, 12 * ts.length + 12 ≤ n) :
    List.Forall₂ (ItemReads (Expr.readLevel n .logic) Expr.Alike) tss es := by
  induction h with
  | nil => exact .nil
  | @cons ts e tss es he _ ih =>
    refine .cons ⟨?_, ?_⟩ (ih fun us hus => hn us (List.mem_cons_of_mem ts hus))
    · obtain ⟨t, us, rfl, hbegins, -⟩ := he.begins
      refine ⟨t, us, rfl, ?_⟩
      rintro rfl
      cases hbegins
    · intro l t us hl ht
      refine he.readLevel hl ?_ (hn ts List.mem_cons_self)
      rcases ht with rfl | rfl <;>
        exact ends_cons (by simp) (fun level => by cases level <;> rfl) us

theorem ne_nil_of_readable {tss : List (List Token)} {es : List Expr}
    (h : List.Forall₂ (Readable 0) tss es) : ∀ ts ∈ tss, ts ≠ [] := by
  induction h with
  | nil => exact fun ts hts => absurd hts List.not_mem_nil
  | cons he _ ih =>
    intro ts hts
    rcases List.mem_cons.1 hts with rfl | hts
    · exact he.ne_nil
    · exact ih ts hts

/-- A call after its callee. -/
theorem Readable.call {cs : List Token} {c : Expr} {tss : List (List Token)} {es : List Expr}
    (hc : Readable 7 cs c) (hes : List.Forall₂ (Readable 0) tss es) (pos : Position) :
    Readable 7 (cs ++ Token.inParens (Token.separated tss)) (.call c es pos) := by
  obtain ⟨t, ts, hcons, hbegins, hnot⟩ := hc.begins
  refine ⟨⟨t, ts ++ _, by rw [hcons]; rfl, hbegins, hnot⟩, fun n l us htokens _ hn => ?_⟩
  have hlength : (cs ++ Token.inParens (Token.separated tss)).length =
      cs.length + (Token.separated tss).length + 2 := by
    simp [Token.inParens]
    omega
  rw [hlength] at hn ⊢
  have hread : ReadsPrimary cs c := hc.reads
  obtain ⟨k, c', m, hk, hc', hm, hcallee⟩ := hread n l
    (.mark .openParen :: (Token.separated tss ++ .mark .closeParen :: us))
    (by rw [htokens]; simp [Token.inParens]) trivial (by omega)
  obtain ⟨j, hj⟩ : ∃ j, n - k = j + 1 := ⟨n - k - 1, by omega⟩
  have hcheck : check (.mark .openParen) m = .ok true m := by
    rw [check_eq, hm]
    simp
  obtain ⟨p, m₁, hadvance, hm₁⟩ := advancePosition_of_tokens hm
  -- the loop has enough of its bound left for each argument
  have hitems : List.Forall₂ (ItemReads (Expr.readLevel j .logic) Expr.Alike) tss es := by
    refine itemReads_arguments hes fun ts hts => ?_
    have := Token.length_le_separated tss ts hts
    omega
  have hcount : tss.length ≤ j := by
    have := Token.separated_length tss (ne_nil_of_readable hes)
    omega
  obtain ⟨as, m₂, has, hm₂, harguments⟩ := parenthesised_of_tokens p hitems hm₁ hcount
  refine ⟨k + 1, .call c' as p, m₂, by omega, .call hc' has trivial, hm₂, ?_⟩
  rw [hcallee, hj, show n - (k + 1) = j by omega, readCalls, bind_of_ok hcheck, if_pos rfl,
    bind_of_ok hadvance, bind_of_ok harguments]

theorem precedence_le (e : Expr) : e.precedence ≤ 7 := by
  cases e with
  | unary op _ _ => cases op <;> simp [precedence, UnaryOp.precedence]
  | binary op _ _ _ => cases op <;> simp [precedence, BinaryOp.precedence]
  | _ => exact Nat.le_refl 7

mutual

/-- **A rendered expression reads as itself**, at the precedence of its outermost construct. -/
theorem readable : ∀ e : Expr, Readable e.precedence e.tokens e
  | .literal v pos => readable_literal v pos
  | .name id pos => readable_name id pos
  | .unary .negation e pos =>
    ((readable e).wrapped e.precedence_le (by decide)).negation pos
  | .unary .plus e pos =>
    ((readable e).wrapped e.precedence_le (by decide)).sign .plus (by simp) pos
  | .unary .minus e pos =>
    ((readable e).wrapped e.precedence_le (by decide)).sign .minus (by simp) pos
  | .binary op l r pos => by
    have hop : op.precedence + 1 ≤ 7 := by cases op <;> simp [BinaryOp.precedence]
    have hl := (readable l).wrapped l.precedence_le (Nat.le_of_succ_le hop)
    -- the right operand binds more tightly than its operator, or stands in parentheses
    have hr := (readable r).wrapped r.precedence_le hop
    simp only [Nat.lt_succ_iff] at hr
    exact hl.binary hr pos
  | .call c es pos => by
    have hc := (readable c).wrapped c.precedence_le (Nat.le_refl 7)
    exact hc.call (readableOf es) pos

/-- All arguments are written so that they can be read back. -/
theorem readableOf : ∀ es : List Expr, List.Forall₂ (Readable 0) (tokensOf es) es
  | [] => .nil
  | e :: es => .cons ((readable e).loosen (Nat.zero_le _) e.precedence_le) (readableOf es)

end

/-- A rendered expression is read up to a token that ends it. -/
theorem read_tokens (e : Expr) {l : Line} {us : List Token} (hl : l.tokens = e.tokens ++ us)
    (hus : Ends us) : ∃ e' m, e'.Alike e ∧ m.tokens = us ∧ Expr.read l = .ok e' m := by
  have hlength : l.rest.length = e.tokens.length + us.length := by
    rw [← List.length_append, ← hl, Line.tokens, List.length_map]
  refine ((readable e).loosen (Nat.zero_le _) e.precedence_le).readLevel hl hus ?_
  rw [readBound, hlength]
  omega

theorem requireMore_tokens (e : Expr) {l : Line} {us : List Token}
    (hl : l.tokens = e.tokens ++ us) : requireMore l = .ok () l :=
  (readable e).requireMore hl

theorem atEnd_tokens (e : Expr) {l : Line} {us : List Token} (hl : l.tokens = e.tokens ++ us) :
    atEnd l = .ok false l := by
  obtain ⟨t, ts, hcons, -⟩ := (readable e).begins
  rw [atEnd_eq, hl, hcons]
  rfl

/-- The tokens that a rendered expression begins with. -/
theorem tokens_begin (e : Expr) : ∃ t us, e.tokens = t :: us ∧ begins t = true := by
  obtain ⟨t, us, hcons, hbegins, -⟩ := (readable e).begins
  exact ⟨t, us, hcons, hbegins⟩

end Expr

end Primer
