import Primer.Proofs.Rendering.Expr
import Primer.Proofs.Scaffold

/-!
# The grammar of expressions

The documented grammar, as a relation between rows and trees that knows nothing of how rows are
read. A chain of a level is an operand of the level, or a chain of the level, an operator of it and
an operand, so that chains fold to the left:

* `level .logic` is a row of comparisons with `AND` and `OR` between them,
* `negated` is a comparison, or `NOT` and a `negated`,
* `level .comparison` is a row of sums with comparisons between them,
* `level .sum` is a row of products with `+` and `-` between them,
* `level .product` is a row of powers with `*`, `/`, `MOD` and `DIV` between them,
* `level .power` is a row of factors with `^` between them,
* `factor` is `+` or `-` and a factor, or a primary with its calls,
* `called` is a primary, or a `called` and an argument list,
* `primary` is a literal, a name, or a chain of the loosest level in parentheses,
* `arguments` is nothing, or chains of the loosest level with commas between them (`items`).

A node stands at its operator, and a call at its opening parenthesis. What the readers take from a
row derives what they give, and where they fail the grammar is at fault and not the end of the input
(`Expr.sound`).
-/

set_option autoImplicit false

namespace Primer

/-- The level of the operators that bind like this one. -/
def BinaryOp.level : BinaryOp → Level
  | conj | disj => .logic
  | compare _ => .comparison
  | add | subtract => .sum
  | multiply | divide | modulo | quotient => .product
  | power => .power

namespace Grammar

/-- The symbols of the grammar. -/
inductive Symbol where
  | level (level : Level)
  | operand (level : Level)
  | negated | factor | called | primary
  | arguments | items
deriving DecidableEq, Repr

/-- What the rows of a symbol stand for. -/
def Symbol.Tree : Symbol → Type
  | arguments | items => List Expr
  | _ => Expr

/-- The row of a symbol in parentheses. -/
def inParens (opening closing : Position) (xs : Row) : Row :=
  ⟨.mark .openParen, opening⟩ :: (xs ++ [⟨.mark .closeParen, closing⟩])

/-- The rows of each symbol, and the trees that they stand for. -/
inductive Derives : (s : Symbol) → Row → s.Tree → Prop
  | single {level : Level} {xs : Row} {e : Expr} (h : Derives (.operand level) xs e) :
      Derives (.level level) xs e
  | binary (op : BinaryOp) (pos : Position) {xs ys : Row} {l r : Expr}
      (hl : Derives (.level op.level) xs l) (hr : Derives (.operand op.level) ys r) :
      Derives (.level op.level) (xs ++ ⟨op.token, pos⟩ :: ys) (Expr.binary op l r pos)
  | ofLogic {xs : Row} {e : Expr} (h : Derives .negated xs e) : Derives (.operand .logic) xs e
  | ofComparison {xs : Row} {e : Expr} (h : Derives (.level .sum) xs e) :
      Derives (.operand .comparison) xs e
  | ofSum {xs : Row} {e : Expr} (h : Derives (.level .product) xs e) : Derives (.operand .sum) xs e
  | ofProduct {xs : Row} {e : Expr} (h : Derives (.level .power) xs e) :
      Derives (.operand .product) xs e
  | ofPower {xs : Row} {e : Expr} (h : Derives .factor xs e) : Derives (.operand .power) xs e
  | negation (pos : Position) {xs : Row} {e : Expr} (h : Derives .negated xs e) :
      Derives .negated (⟨.keyword .kwNot, pos⟩ :: xs) (Expr.unary .negation e pos)
  | comparison {xs : Row} {e : Expr} (h : Derives (.level .comparison) xs e) :
      Derives .negated xs e
  | sign (op : UnaryOp) (hop : op = .plus ∨ op = .minus) (pos : Position) {xs : Row} {e : Expr}
      (h : Derives .factor xs e) : Derives .factor (⟨op.token, pos⟩ :: xs) (Expr.unary op e pos)
  | unsigned {xs : Row} {e : Expr} (h : Derives .called xs e) : Derives .factor xs e
  | callee {xs : Row} {e : Expr} (h : Derives .primary xs e) : Derives .called xs e
  | call (opening closing : Position) {xs ys : Row} {c : Expr} {es : List Expr}
      (hc : Derives .called xs c) (hes : Derives .arguments ys es) :
      Derives .called (xs ++ inParens opening closing ys) (Expr.call c es opening)
  | literal (v : Literal) (pos : Position) : Derives .primary [⟨v.token, pos⟩] (Expr.literal v pos)
  | name (id : String) (pos : Position) : Derives .primary [⟨.name id, pos⟩] (Expr.name id pos)
  | parens (opening closing : Position) {xs : Row} {e : Expr} (h : Derives (.level .logic) xs e) :
      Derives .primary (inParens opening closing xs) e
  | noArguments : Derives .arguments [] []
  | someArguments {xs : Row} {es : List Expr} (h : Derives .items xs es) : Derives .arguments xs es
  | lastItem {xs : Row} {e : Expr} (h : Derives (.level .logic) xs e) : Derives .items xs [e]
  | moreItems (comma : Position) {xs ys : Row} {e : Expr} {es : List Expr}
      (h : Derives (.level .logic) xs e) (hes : Derives .items ys es) :
      Derives .items (xs ++ ⟨.mark .comma, comma⟩ :: ys) (e :: es)

/-- The rows of expressions. -/
abbrev Chain (xs : Row) (e : Expr) : Prop := Derives (.level .logic) xs e

end Grammar

/-! ## Readers that take rows -/

namespace LineReader

variable {α β : Type} {A : Row → α → Prop} {B : Row → β → Prop} {l : Line}

/-- The reader takes a row that is related to what it gives, or fails because of the grammar, and
not because of the end of the input. -/
def Takes (A : Row → α → Prop) (reader : LineReader α) (l : Line) : Prop :=
  match reader l with
  | .ok a m => ∃ xs, l.rest = xs ++ m.rest ∧ A xs a
  | .error fault _ => fault.cause.family = .grammar false

theorem takes_pure {a : α} (h : A [] a) : Takes A (pure a) l := ⟨[], rfl, h⟩

/-- A failure at the previous token is a syntax error, whatever was to be read. -/
theorem takes_failAtPrevious {cause : Cause} (h : cause.family = .grammar false) :
    Takes A (failAtPrevious cause) l := h

theorem takes_throw {cause : Cause} (h : cause.family = .grammar false) (pos : Position) :
    Takes A (throw ⟨cause, pos⟩) l := h

/-- What is read may be said in a weaker way. -/
theorem Takes.imp {A' : Row → α → Prop} {x : LineReader α} (h : Takes A x l)
    (himp : ∀ xs a, A xs a → A' xs a) : Takes A' x l := by
  unfold Takes at h ⊢
  split at h
  · obtain ⟨xs, hrest, hxs⟩ := h
    exact ⟨xs, hrest, himp _ _ hxs⟩
  · exact h

/-- After a reader that took a row. -/
theorem takes_after (xs : Row) {x : LineReader α} {a : α} {f : α → LineReader β} {m : Line}
    (hx : x l = .ok a m) (hrest : l.rest = xs ++ m.rest)
    (hf : Takes (fun ys b => B (xs ++ ys) b) (f a) m) : Takes B (x >>= f) l := by
  unfold Takes at hf ⊢
  rw [bind_of_ok hx]
  generalize f a m = r at hf ⊢
  cases r with
  | ok b m' =>
    obtain ⟨ys, hrest', hys⟩ := hf
    exact ⟨xs ++ ys, by rw [hrest, hrest', List.append_assoc], hys⟩
  | error fault m' => exact hf

/-- After a reader that took nothing. -/
theorem takes_idle {x : LineReader α} {a : α} {f : α → LineReader β} (hx : x l = .ok a l)
    (hf : Takes B (f a) l) : Takes B (x >>= f) l :=
  takes_after [] hx rfl hf

/-- A failure of the first reader is one of both. -/
theorem takes_stopped {x : LineReader α} {f : α → LineReader β} {fault : Fault} {m : Line}
    (hx : x l = .error fault m) (hfamily : fault.cause.family = .grammar false) :
    Takes B (x >>= f) l := by
  show Takes B (EStateM.bind x f) l
  unfold Takes EStateM.bind
  rw [hx]
  exact hfamily

/-- Of two readers in a row, the second takes what follows. -/
theorem Takes.bind {x : LineReader α} {f : α → LineReader β} (hx : Takes A x l)
    (hf : ∀ xs a m, A xs a → Takes (fun ys b => B (xs ++ ys) b) (f a) m) :
    Takes B (x >>= f) l := by
  unfold Takes at hx
  split at hx
  · next a m hread =>
    obtain ⟨xs, hrest, hxs⟩ := hx
    exact takes_after xs hread hrest (hf xs a m hxs)
  · next fault m hread => exact takes_stopped hread hx

/-- After a reader that looks whether a token comes next. -/
theorem takes_check {t : Token} {f : Bool → LineReader β}
    (hyes : ∀ p xs, l.rest = ⟨t, p⟩ :: xs → Takes B (f true) l) (hno : Takes B (f false) l) :
    Takes B (check t >>= f) l := by
  by_cases ht : l.tokens.head? = some t
  · refine takes_idle (check_eq t l) ?_
    obtain ⟨us, hus⟩ := List.head?_eq_some_iff.1 ht
    obtain ⟨p, xs, hrest, -⟩ := rest_of_tokens hus
    simpa [ht] using hyes p xs hrest
  · refine takes_idle (check_eq t l) ?_
    rw [beq_eq_false_iff_ne.2 ht]
    exact hno

/-- A token that stands next is taken, and the rest is read after it. -/
theorem takes_advancePosition {x : Lexeme} {xs : Row} {f : Position → LineReader β}
    (hl : l.rest = x :: xs)
    (hf : ∀ m, m.rest = xs → Takes (fun ys b => B (x :: ys) b) (f x.position) m) :
    Takes B (advancePosition >>= f) l := by
  have hread : advancePosition l = .ok x.position ⟨xs, l.taken + 1, x.position⟩ := by
    simp only [advancePosition, hl]
  exact takes_after [x] hread hl (hf _ rfl)

/-- Either no token is left, or one is taken and the rest is read after it. -/
theorem takes_advance {f : Option Lexeme → LineReader β} (hnone : l.rest = [] → Takes B (f none) l)
    (hsome : ∀ x m, l.rest = x :: m.rest → Takes (fun ys b => B (x :: ys) b) (f (some x)) m) :
    Takes B (advance >>= f) l := by
  cases hl : l.rest with
  | nil => exact takes_idle (by simp only [advance, hl]) (hnone hl)
  | cons x xs =>
    have hread : advance l = .ok (some x) ⟨xs, l.taken + 1, x.position⟩ := by
      simp only [advance, hl]
    exact takes_after [x] hread hl (hsome x _ hl)

/-- After a reader that needs something to be left. -/
theorem takes_requireMore {f : Unit → LineReader β} (hf : Takes B (f ()) l) :
    Takes B (requireMore >>= f) l := by
  cases hl : l.rest with
  | nil =>
    have hread : requireMore l = .error ⟨.incomplete, l.previous⟩ l := by
      simp only [requireMore, hl]
    exact takes_stopped hread rfl
  | cons x xs => exact takes_idle (by simp only [requireMore, hl]) hf

/-- Just the token that is expected is taken. -/
theorem takes_expect (t : Token) (what : Expectation) :
    Takes (fun xs p => xs = [⟨t, p⟩]) (expect t what) l := by
  unfold Takes expect
  cases l.rest with
  | nil => rfl
  | cons x xs =>
    dsimp only
    by_cases ht : x.token = t
    · rw [if_pos ht]
      subst ht
      exact ⟨[x], rfl, rfl⟩
    · rw [if_neg ht]
      rfl

/-- A reader that has to use the row up gives what the whole row is related to, or fails because of
the grammar. -/
theorem Takes.whole {x : LineReader α} (h : Takes A x l) :
    (∃ a, x.whole l = .ok a ∧ A l.rest a) ∨
      ∃ fault, x.whole l = .error fault ∧ fault.cause.family = .grammar false := by
  unfold Takes at h
  unfold LineReader.whole
  generalize x l = r at h ⊢
  cases r with
  | ok a m =>
    obtain ⟨xs, hrest, hxs⟩ := h
    cases hm : m.rest with
    | nil => exact .inl ⟨a, by simp only [hm], by simpa [hrest, hm] using hxs⟩
    | cons y ys =>
      exact .inr ⟨⟨.unexpectedToken y.token, y.position⟩, by simp only [hm], rfl⟩
  | error fault m => exact .inr ⟨fault, rfl, h⟩

/-- The row stands for these items, and ends with the closing parenthesis after them. -/
def Closed (s : Grammar.Symbol) (xs : Row) (tree : s.Tree) : Prop :=
  ∃ ys closing, xs = ys ++ [⟨.mark .closeParen, closing⟩] ∧ Grammar.Derives s ys tree

/-- Items up to the closing parenthesis are those of the grammar. -/
theorem takes_items {item : LineReader Expr} (hitem : ∀ l, Takes Grammar.Chain item l)
    (opened : Position) (n : Nat) : ∀ l, Takes (Closed .items) (items item opened n) l := by
  -- the bound is on the number of items, each of which reads on from where the last one ended
  induction n with
  | zero => exact fun l => takes_failAtPrevious rfl
  | succ n ih =>
    intro l
    rw [items]
    refine takes_idle (atEnd_eq l) ?_
    split
    · exact takes_throw rfl opened
    refine (hitem l).bind fun xs e m he => takes_advance (fun _ => takes_throw rfl opened) ?_
    rintro ⟨token, pos⟩ m' -
    cases token with
    | mark mark =>
      cases mark with
      | closeParen => exact takes_pure ⟨xs, pos, rfl, .lastItem he⟩
      | comma =>
        refine takes_idle (atEnd_eq m') ?_
        refine takes_idle (check_eq _ m') ?_
        dsimp only
        split
        · exact takes_throw rfl pos
        refine (ih m').bind ?_
        rintro _ es m'' ⟨ys, closing, rfl, hes⟩
        refine takes_pure ⟨xs ++ ⟨.mark .comma, pos⟩ :: ys, closing, ?_, .moreItems pos he hes⟩
        simp
      | _ => exact takes_throw rfl pos
    | _ => exact takes_throw rfl pos

theorem takes_parenthesised {item : LineReader Expr} (hitem : ∀ l, Takes Grammar.Chain item l)
    (opened : Position) (n : Nat) (l : Line) :
    Takes (Closed .arguments) (parenthesised item opened n) l := by
  rw [parenthesised]
  refine takes_check (fun closing xs hrest => ?_) ?_
  · refine takes_advance (fun hnil => ?_) fun x m hrest' => takes_pure ?_
    · rw [hnil] at hrest
      cases hrest
    · rw [hrest] at hrest'
      cases hrest'
      exact ⟨[], closing, rfl, .noArguments⟩
  · refine (takes_items hitem opened n l).imp ?_
    rintro _ es ⟨ys, closing, rfl, hes⟩
    exact ⟨ys, closing, rfl, .someArguments hes⟩

end LineReader

/-! ## Soundness -/

/-- An operator of a level is written with its own token. -/
theorem Level.token_of_operator? {level : Level} {t : Token} {op : BinaryOp}
    (h : level.operator? t = some op) : op.level = level ∧ t = op.token := by
  revert h
  fun_cases Level.operator? level t <;> intro h <;> cases h <;> exact ⟨rfl, rfl⟩

namespace Expr

open Grammar LineReader

/-- What the readers of expressions take derives what they give. -/
structure Sound (n : Nat) : Prop where
  level : ∀ (level : Level) l, Takes (Derives (.level level)) (readLevel n level) l
  more : ∀ (level : Level) xs left, Derives (.level level) xs left → ∀ l,
    Takes (fun ys (e : Expr) => Derives (.level level) (xs ++ ys) e) (readMore n level left) l
  operand : ∀ (level : Level) l, Takes (Derives (.operand level)) (readOperand n level) l
  negation : ∀ l, Takes (Derives .negated) (readNegation n) l
  factor : ∀ l, Takes (Derives .factor) (readFactor n) l
  calls : ∀ xs callee, Derives .called xs callee → ∀ l,
    Takes (fun ys (e : Expr) => Derives .called (xs ++ ys) e) (readCalls n callee) l

section Step

variable {n : Nat} (ih : Sound n)

include ih

/-- What is read for a level is derived from it. -/
theorem Sound.readLevel_succ (level : Level) (l : Line) :
    Takes (Derives (.level level)) (readLevel (n + 1) level) l := by
  rw [readLevel]
  exact (ih.operand level l).bind fun xs e m he => ih.more level xs e (.single he) m

/-- A left operand is extended to something that is derived from its level. -/
theorem Sound.readMore_succ (level : Level) (xs : Row) (left : Expr)
    (hleft : Derives (.level level) xs left) (l : Line) :
    Takes (fun ys (e : Expr) => Derives (.level level) (xs ++ ys) e)
      (readMore (n + 1) level left) l := by
  rw [readMore]
  refine takes_idle (peek_eq l) ?_
  cases hop : l.tokens.head?.bind level.operator? with
  | none => exact takes_pure (by simpa using hleft)
  | some op =>
    obtain ⟨t, ht, hoperator⟩ := Option.bind_eq_some_iff.1 hop
    obtain ⟨rfl, rfl⟩ := Level.token_of_operator? hoperator
    obtain ⟨us, hus⟩ := List.head?_eq_some_iff.1 ht
    obtain ⟨pos, zs, hrest, -⟩ := rest_of_tokens hus
    refine takes_advancePosition hrest fun m _ => takes_requireMore ?_
    refine (ih.operand op.level m).bind fun ys right m' hright => ?_
    refine (ih.more _ _ _ (.binary op pos hleft hright) m').imp fun vs e he => ?_
    simpa using he

theorem Sound.readOperand_succ (level : Level) (l : Line) :
    Takes (Derives (.operand level)) (readOperand (n + 1) level) l := by
  cases level with
  | logic => exact (ih.negation l).imp fun xs e he => .ofLogic he
  | comparison => exact (ih.level .sum l).imp fun xs e he => .ofComparison he
  | sum => exact (ih.level .product l).imp fun xs e he => .ofSum he
  | product => exact (ih.level .power l).imp fun xs e he => .ofProduct he
  | power => exact (ih.factor l).imp fun xs e he => .ofPower he

theorem Sound.readNegation_succ (l : Line) :
    Takes (Derives .negated) (readNegation (n + 1)) l := by
  rw [readNegation]
  refine takes_check (fun pos xs hrest => ?_) ?_
  · refine takes_advancePosition hrest fun m _ => takes_requireMore ?_
    refine (ih.negation m).bind fun ys e m' he => takes_pure ?_
    simpa using .negation pos he
  · exact (ih.level .comparison l).imp fun xs e he => .comparison he

/-- A primary is read on to the end of its calls. -/
theorem Sound.primary {xs : Row} {e : Expr} (h : Derives .primary xs e) (l : Line) :
    Takes (fun ys (e : Expr) => Derives .factor (xs ++ ys) e) (readCalls n e) l :=
  (ih.calls xs e (.callee h) l).imp fun _ _ he => .unsigned he

theorem Sound.readFactor_succ (l : Line) : Takes (Derives .factor) (readFactor (n + 1)) l := by
  rw [readFactor]
  -- a factor is told by its first token
  refine takes_advance (fun _ => takes_failAtPrevious rfl) ?_
  rintro ⟨token, pos⟩ m -
  cases token with
  | integer k => exact ih.primary (.literal (.integer k) pos) m
  | float x => exact ih.primary (.literal (.float x) pos) m
  | boolean b => exact ih.primary (.literal (.boolean b) pos) m
  | text s => exact ih.primary (.literal (.text s) pos) m
  | name s => exact ih.primary (.name s pos) m
  | keyword k => exact takes_throw rfl pos
  | mark mark =>
    cases mark with
    | plus =>
      refine takes_requireMore ((ih.factor m).bind fun xs e m' he => takes_pure ?_)
      simpa using .sign .plus (.inl rfl) pos he
    | minus =>
      refine takes_requireMore ((ih.factor m).bind fun xs e m' he => takes_pure ?_)
      simpa using .sign .minus (.inr rfl) pos he
    | openParen =>
      refine takes_requireMore ((ih.level .logic m).bind fun xs e m' he => ?_)
      refine (takes_expect _ _).bind ?_
      rintro _ closing m'' rfl
      refine (ih.primary (.parens pos closing he) m'').imp fun ys e' he' => ?_
      simpa [inParens] using he'
    | _ => exact takes_throw rfl pos

theorem Sound.readCalls_succ (xs : Row) (callee : Expr) (h : Derives .called xs callee)
    (l : Line) :
    Takes (fun ys (e : Expr) => Derives .called (xs ++ ys) e) (readCalls (n + 1) callee) l := by
  rw [readCalls]
  refine takes_check (fun pos zs hrest => ?_) ?_
  · refine takes_advancePosition hrest fun m _ => ?_
    refine (takes_parenthesised (ih.level .logic) pos n m).bind ?_
    rintro _ es m' ⟨ys, closing, rfl, hes⟩
    refine (ih.calls _ _ (.call pos closing h hes) m').imp fun vs e he => ?_
    simpa [inParens] using he
  · exact takes_pure (by simpa using h)

end Step

/-- **The readers are sound.** -/
theorem sound (n : Nat) : Sound n := by
  -- each reader calls the others with less fuel, and all of them fail without any
  induction n with
  | zero =>
    exact ⟨fun _ _ => takes_failAtPrevious rfl, fun _ _ _ _ _ => takes_failAtPrevious rfl,
      fun _ _ => takes_failAtPrevious rfl, fun _ => takes_failAtPrevious rfl,
      fun _ => takes_failAtPrevious rfl, fun _ _ _ _ => takes_failAtPrevious rfl⟩
  | succ n ih =>
    exact ⟨ih.readLevel_succ, ih.readMore_succ, ih.readOperand_succ, ih.readNegation_succ,
      ih.readFactor_succ, ih.readCalls_succ⟩

end Expr

end Primer
