import Primer.Proofs.Aligned
import Primer.Stmt.Parser

/-!
# Reading aligned rows

Readers of a row never look at positions: on aligned rows they give aligned results, or faults of
the same cause at related positions. None of these faults is one that more input could mend, because
no reader of a row asks for another row.

`LineReader.Aligned` carries both facts through the readers of expressions and headers. Taken along
equality, it speaks of one row alone.
-/

set_option autoImplicit false

namespace Primer

/-- The lines carry the same tokens, and as many were taken. -/
structure Line.Aligned (R : Position → Position → Prop) (l m : Line) : Prop where
  rest : List.Forall₂ (Lexeme.Aligned R) l.rest m.rest
  taken : l.taken = m.taken
  previous : R l.previous m.previous

/-- Two readings of a row end alike. -/
inductive Line.Result.Aligned {α : Type} (R : Position → Position → Prop) (A : α → α → Prop) :
    EStateM.Result Fault Line α → EStateM.Result Fault Line α → Prop
  | ok {a b : α} {l m : Line} (hab : A a b) (hlm : l.Aligned R m) :
      Aligned R A (.ok a l) (.ok b m)
  | error {f g : Fault} {l m : Line} (hfg : f.Aligned R g) : Aligned R A (.error f l) (.error g m)

/-- The readers end alike on aligned lines. -/
def LineReader.Aligned {α : Type} (R : Position → Position → Prop) (A : α → α → Prop)
    (x y : LineReader α) : Prop :=
  ∀ l m : Line, l.Aligned R m → Line.Result.Aligned R A (x l) (y m)

namespace LineReader

variable {R : Position → Position → Prop} {α β : Type} {A : α → α → Prop} {B : β → β → Prop}

/-- Pairs of a name and its position. -/
def Named (R : Position → Position → Prop) (a b : String × Position) : Prop :=
  a.1 = b.1 ∧ R a.2 b.2

theorem Aligned.pure {a b : α} (h : A a b) : Aligned R A (pure a) (pure b) :=
  fun _ _ hlm => .ok h hlm

/-- Readers stay aligned one after the other. -/
theorem Aligned.bind {x y : LineReader α} {next next' : α → LineReader β}
    (hx : Aligned R A x y) (hnext : ∀ a b, A a b → Aligned R B (next a) (next' b)) :
    Aligned R B (x >>= next) (y >>= next') := by
  intro l m hlm
  show Line.Result.Aligned R B (EStateM.bind x next l) (EStateM.bind y next' m)
  have h := hx l m hlm
  simp only [EStateM.bind]
  cases hxl : x l with
  | ok a l' =>
    cases hym : y m with
    | ok b m' =>
      rw [hxl, hym] at h
      cases h with
      | ok hab hlm' => exact hnext a b hab l' m' hlm'
    | error g m' =>
      rw [hxl, hym] at h
      cases h
  | error f l' =>
    cases hym : y m with
    | ok b m' =>
      rw [hxl, hym] at h
      cases h
    | error g m' =>
      rw [hxl, hym] at h
      cases h with
      | error hfg => exact .error hfg

/-- Failing for the same cause at related positions. -/
theorem aligned_throw {cause : Cause} {p q : Position} (hp : R p q)
    (hwithin : (⟨cause, p⟩ : Fault).isWithin = true) :
    Aligned R A (throw ⟨cause, p⟩ : LineReader α) (throw ⟨cause, q⟩) :=
  fun _ _ _ => .error ⟨rfl, hp, hwithin⟩

theorem aligned_failAtPrevious {cause : Cause}
    (hwithin : ∀ p, (⟨cause, p⟩ : Fault).isWithin = true) :
    Aligned R A (failAtPrevious cause : LineReader α) (failAtPrevious cause) :=
  fun l _ hlm => .error ⟨rfl, hlm.previous, hwithin l.previous⟩

/-- The next tokens of aligned rows. -/
theorem head_eq {rest rest' : Row} (h : List.Forall₂ (Lexeme.Aligned R) rest rest') :
    rest.head?.map Lexeme.token = rest'.head?.map Lexeme.token := by
  cases h with
  | nil => rfl
  | cons hx _ => exact congrArg some hx.token

theorem aligned_peek : Aligned R Eq peek peek :=
  fun _ _ hlm => .ok (head_eq hlm.rest) hlm

theorem aligned_check (t : Token) : Aligned R Eq (check t) (check t) := by
  intro l m hlm
  refine .ok ?_ hlm
  rw [head_eq hlm.rest]

theorem aligned_atEnd : Aligned R Eq atEnd atEnd := by
  rintro ⟨rest, taken, p⟩ ⟨rest', taken', q⟩ hlm
  refine .ok ?_ hlm
  cases hlm.rest <;> rfl

/-- A line after its first lexeme was taken. -/
theorem aligned_tail {x y : Lexeme} {xs ys : Row} {t t' : Nat} {p q : Position}
    (h : Line.Aligned R ⟨x :: xs, t, p⟩ ⟨y :: ys, t', q⟩) :
    Line.Aligned R ⟨xs, t + 1, x.position⟩ ⟨ys, t' + 1, y.position⟩ := by
  obtain ⟨hrest, htaken, -⟩ := h
  cases hrest with
  | cons hx hxs => exact ⟨hxs, congrArg (· + 1) htaken, hx.position⟩

/-- Both readers take a token, at aligned positions, or there is none for either. -/
theorem aligned_advance : Aligned R (Option.Rel (Lexeme.Aligned R)) advance advance := by
  rintro ⟨rest, taken, p⟩ ⟨rest', taken', q⟩ hlm
  cases hlm.rest with
  | nil => exact .ok .none hlm
  | cons hx _ => exact .ok (.some hx) (aligned_tail hlm)

theorem aligned_advancePosition : Aligned R R advancePosition advancePosition := by
  rintro ⟨rest, taken, p⟩ ⟨rest', taken', q⟩ hlm
  cases hlm.rest with
  | nil => exact .ok hlm.previous hlm
  | cons hx _ => exact .ok hx.position (aligned_tail hlm)

theorem aligned_requireMore : Aligned R Eq requireMore requireMore := by
  rintro ⟨rest, taken, p⟩ ⟨rest', taken', q⟩ hlm
  cases hlm.rest with
  | nil => exact .error ⟨rfl, hlm.previous, rfl⟩
  | cons _ _ => exact .ok rfl hlm

/-- The token that is expected stands next for both readers or for neither. -/
theorem aligned_expect (t : Token) (what : Expectation) :
    Aligned R R (expect t what) (expect t what) := by
  rintro ⟨rest, taken, p⟩ ⟨rest', taken', q⟩ hlm
  cases hlm.rest with
  | nil => exact .error ⟨rfl, hlm.previous, rfl⟩
  | @cons x y xs ys hx _ =>
    by_cases ht : x.token = t
    · have ht' : y.token = t := hx.token ▸ ht
      simp only [expect, ht, ht', if_true]
      exact .ok hx.position (aligned_tail hlm)
    · have ht' : y.token ≠ t := hx.token ▸ ht
      simp only [expect, ht', if_false, hx.token]
      exact .error ⟨rfl, hx.position, rfl⟩

theorem aligned_name (what : Expectation) :
    Aligned R (Named R) (LineReader.name what) (LineReader.name what) := by
  rintro ⟨rest, taken, p⟩ ⟨rest', taken', q⟩ hlm
  cases hlm.rest with
  | nil => exact .error ⟨rfl, hlm.previous, rfl⟩
  | @cons x y xs ys hx _ =>
    have htail := aligned_tail hlm
    simp only [LineReader.name, hx.token]
    cases y.token with
    | name s => exact .ok ⟨rfl, hx.position⟩ htail
    | _ => exact .error ⟨rfl, hx.position, rfl⟩

theorem aligned_items {item item' : LineReader α} (hitem : Aligned R A item item')
    {p q : Position} (hp : R p q) (n : Nat) :
    Aligned R (List.Forall₂ A) (items item p n) (items item' q n) := by
  induction n with
  | zero => exact aligned_failAtPrevious fun _ => rfl
  | succ n ih =>
    rw [items, items]
    refine aligned_atEnd.bind ?_
    rintro ended _ rfl
    split
    · exact fun _ _ _ => .error ⟨rfl, hp, rfl⟩
    · refine hitem.bind ?_
      intro a b hab
      refine aligned_advance.bind ?_
      -- after an item, a comma or the closing parenthesis has to stand
      rintro _ _ (@⟨⟨token, pos⟩, ⟨_, pos'⟩, rfl, hpos⟩ | _)
      · cases token with
        | mark m =>
          cases m with
          | closeParen => exact .pure (.cons hab .nil)
          | comma =>
            refine aligned_atEnd.bind ?_
            rintro ended' _ rfl
            refine (aligned_check _).bind ?_
            rintro closed _ rfl
            split
            · exact fun _ _ _ => .error ⟨rfl, hpos, rfl⟩
            · exact ih.bind fun as bs habs => .pure (.cons hab habs)
          | _ => exact aligned_throw hpos rfl
        | _ => exact aligned_throw hpos rfl
      · exact aligned_throw hp rfl

theorem aligned_parenthesised {item item' : LineReader α} (hitem : Aligned R A item item')
    {p q : Position} (hp : R p q) (n : Nat) :
    Aligned R (List.Forall₂ A) (parenthesised item p n) (parenthesised item' q n) := by
  unfold parenthesised
  refine (aligned_check _).bind ?_
  rintro closed _ rfl
  split
  · exact aligned_advance.bind fun _ _ _ => .pure .nil
  · exact aligned_items hitem hp n

end LineReader

/-! ## Expressions -/

namespace Expr

open LineReader

variable {R : Position → Position → Prop}

/-- The functions that read expressions end alike on aligned lines. -/
structure ReadsAligned (R : Position → Position → Prop) (n : Nat) : Prop where
  level : ∀ level, LineReader.Aligned R (Expr.Aligned R) (readLevel n level) (readLevel n level)
  more : ∀ level e e', e.Aligned R e' →
    LineReader.Aligned R (Expr.Aligned R) (readMore n level e) (readMore n level e')
  operand : ∀ level,
    LineReader.Aligned R (Expr.Aligned R) (readOperand n level) (readOperand n level)
  negation : LineReader.Aligned R (Expr.Aligned R) (readNegation n) (readNegation n)
  factor : LineReader.Aligned R (Expr.Aligned R) (readFactor n) (readFactor n)
  calls : ∀ e e', e.Aligned R e' →
    LineReader.Aligned R (Expr.Aligned R) (readCalls n e) (readCalls n e')

section Step

variable {n : Nat} (ih : ReadsAligned R n)

include ih

/-- Expressions of a level are read alike if shorter ones are. -/
theorem ReadsAligned.readLevel_succ (level : Level) :
    LineReader.Aligned R (Expr.Aligned R) (readLevel (n + 1) level) (readLevel (n + 1) level) := by
  rw [readLevel]
  exact (ih.operand level).bind fun e e' he => ih.more level e e' he

theorem ReadsAligned.readMore_succ (level : Level) (e e' : Expr) (he : e.Aligned R e') :
    LineReader.Aligned R (Expr.Aligned R) (readMore (n + 1) level e)
      (readMore (n + 1) level e') := by
  rw [readMore, readMore]
  refine aligned_peek.bind ?_
  rintro t _ rfl
  cases t.bind level.operator? with
  | none => exact .pure he
  | some op =>
    refine aligned_advancePosition.bind fun p q hp => ?_
    refine aligned_requireMore.bind fun _ _ _ => ?_
    refine (ih.operand level).bind fun r r' hr => ?_
    exact ih.more level _ _ (.binary op he hr hp)

theorem ReadsAligned.readOperand_succ (level : Level) :
    LineReader.Aligned R (Expr.Aligned R) (readOperand (n + 1) level)
      (readOperand (n + 1) level) := by
  cases level with
  | logic =>
    rw [readOperand]
    exact ih.negation
  | power =>
    rw [readOperand]
    exact ih.factor
  | _ =>
    rw [readOperand]
    exact ih.level _

theorem ReadsAligned.readNegation_succ :
    LineReader.Aligned R (Expr.Aligned R) (readNegation (n + 1)) (readNegation (n + 1)) := by
  rw [readNegation]
  refine (aligned_check _).bind ?_
  rintro negated _ rfl
  split
  · refine aligned_advancePosition.bind fun p q hp => ?_
    refine aligned_requireMore.bind fun _ _ _ => ?_
    exact ih.negation.bind fun e e' he => .pure (.unary .negation he hp)
  · exact ih.level .comparison

theorem ReadsAligned.readFactor_succ :
    LineReader.Aligned R (Expr.Aligned R) (readFactor (n + 1)) (readFactor (n + 1)) := by
  rw [readFactor]
  refine aligned_advance.bind ?_
  rintro _ _ (@⟨⟨token, pos⟩, ⟨_, pos'⟩, rfl, hpos⟩ | _)
  · cases token with
    | integer k => exact ih.calls _ _ (.literal _ hpos)
    | float x => exact ih.calls _ _ (.literal _ hpos)
    | boolean b => exact ih.calls _ _ (.literal _ hpos)
    | text s => exact ih.calls _ _ (.literal _ hpos)
    | name s => exact ih.calls _ _ (.name s hpos)
    | keyword k => exact aligned_throw hpos rfl
    | mark m =>
      cases m with
      | plus =>
        refine aligned_requireMore.bind fun _ _ _ => ?_
        exact ih.factor.bind fun e e' he => .pure (.unary .plus he hpos)
      | minus =>
        refine aligned_requireMore.bind fun _ _ _ => ?_
        exact ih.factor.bind fun e e' he => .pure (.unary .minus he hpos)
      | openParen =>
        refine aligned_requireMore.bind fun _ _ _ => ?_
        refine (ih.level .logic).bind fun e e' he => ?_
        exact (aligned_expect _ _).bind fun _ _ _ => ih.calls e e' he
      | _ => exact aligned_throw hpos rfl
  · exact aligned_failAtPrevious fun _ => rfl

theorem ReadsAligned.readCalls_succ (e e' : Expr) (he : e.Aligned R e') :
    LineReader.Aligned R (Expr.Aligned R) (readCalls (n + 1) e) (readCalls (n + 1) e') := by
  rw [readCalls, readCalls]
  refine (aligned_check _).bind ?_
  rintro opened _ rfl
  split
  · refine aligned_advancePosition.bind fun p q hp => ?_
    refine (aligned_parenthesised (ih.level .logic) hp n).bind fun es es' hes => ?_
    exact ih.calls _ _ (.call he hes hp)
  · exact .pure he

end Step

/-- Expressions are read alike with any amount of fuel. -/
theorem readsAligned (n : Nat) : ReadsAligned R n := by
  -- each reader calls the others with less fuel, and all of them stop alike without any
  induction n with
  | zero =>
    have hfail : LineReader.Aligned R (Expr.Aligned R) (failAtPrevious .incomplete)
        (failAtPrevious .incomplete) := aligned_failAtPrevious fun _ => rfl
    exact ⟨fun _ => hfail, fun _ _ _ _ => hfail, fun _ => hfail, hfail, hfail, fun _ _ _ => hfail⟩
  | succ n ih =>
    exact ⟨ih.readLevel_succ, ih.readMore_succ, ih.readOperand_succ, ih.readNegation_succ,
      ih.readFactor_succ, ih.readCalls_succ⟩

/-- Lines that differ in positions only give expressions that differ in positions only. -/
theorem aligned_read : LineReader.Aligned R (Expr.Aligned R) Expr.read Expr.read := by
  intro l m hlm
  have h := (readsAligned (R := R) (readBound l.rest.length)).level .logic l m hlm
  have hlength : readBound l.rest.length = readBound m.rest.length :=
    congrArg readBound hlm.rest.length_eq
  show Line.Result.Aligned R _ (readLevel (readBound l.rest.length) .logic l)
    (readLevel (readBound m.rest.length) .logic m)
  rw [← hlength]
  exact h

end Expr

/-! ## Headers and simple statements -/

namespace Stmt

open LineReader

variable {R : Position → Position → Prop}

/-- The headers are of the same counting loop. -/
structure ForHeader.Aligned (R : Position → Position → Prop) (h k : ForHeader) : Prop where
  counter : h.counter = k.counter
  first : h.first.Aligned R k.first
  last : h.last.Aligned R k.last
  step : h.step.Aligned R k.step
  position : R h.position k.position

/-- The headers are of the same subroutine. -/
structure SubroutineHeader.Aligned (R : Position → Position → Prop) (h k : SubroutineHeader) :
    Prop where
  name : h.name = k.name
  params : h.params = k.params
  position : R h.position k.position

theorem aligned_readCondition :
    LineReader.Aligned R (Expr.Aligned R) readCondition readCondition :=
  aligned_requireMore.bind fun _ _ _ => Expr.aligned_read

theorem aligned_readGuard : LineReader.Aligned R (Expr.Aligned R) readGuard readGuard :=
  aligned_requireMore.bind fun _ _ _ =>
    Expr.aligned_read.bind fun _ _ he => (aligned_expect _ _).bind fun _ _ _ => .pure he

theorem aligned_readQualifiers (n : Nat) (sealing isGlobal : Bool) :
    LineReader.Aligned R Eq (readQualifiers n sealing isGlobal)
      (readQualifiers n sealing isGlobal) := by
  induction n generalizing sealing isGlobal with
  | zero => exact .pure rfl
  | succ n ih =>
    rw [readQualifiers]
    refine aligned_peek.bind ?_
    rintro t _ rfl
    split
    · refine aligned_advancePosition.bind fun p q hp => ?_
      split
      · exact fun _ _ _ => .error ⟨rfl, hp, rfl⟩
      · exact ih true isGlobal
    · refine aligned_advancePosition.bind fun p q hp => ?_
      split
      · exact fun _ _ _ => .error ⟨rfl, hp, rfl⟩
      · exact ih sealing true
    · exact .pure rfl

/-- Assignments are read alike, with the same target. -/
theorem aligned_readAssignment :
    LineReader.Aligned R (Stmt.Aligned R) readAssignment readAssignment := by
  refine (aligned_readQualifiers 3 false false).bind ?_
  rintro ⟨sealing, isGlobal⟩ _ rfl
  refine (aligned_name _).bind ?_
  rintro ⟨id, pos⟩ ⟨_, pos'⟩ ⟨rfl, hpos⟩
  refine (aligned_expect _ _).bind fun sign sign' hsign => ?_
  refine aligned_atEnd.bind ?_
  rintro ended _ rfl
  split
  · exact fun _ _ _ => .error ⟨rfl, hsign, rfl⟩
  · exact Expr.aligned_read.bind fun e e' he => .pure (.assign _ he hpos)

/-- Whether a return is allowed depends on the subroutine around it only. -/
theorem aligned_readReturn (inside : Option SubroutineKind) :
    LineReader.Aligned R (Stmt.Aligned R) (readReturn inside) (readReturn inside) := by
  refine aligned_advancePosition.bind fun pos pos' hpos => ?_
  cases inside with
  | none => exact aligned_throw hpos rfl
  | some kind =>
    refine aligned_atEnd.bind ?_
    rintro ended _ rfl
    split
    · exact .pure (.retNone hpos)
    · cases kind with
      | procedure => exact aligned_throw hpos rfl
      | function => exact Expr.aligned_read.bind fun e e' he => .pure (.retSome he hpos)

theorem aligned_readForHeader :
    LineReader.Aligned R (ForHeader.Aligned R) readForHeader readForHeader := by
  refine aligned_advancePosition.bind fun pos pos' hpos => ?_
  refine (aligned_name _).bind ?_
  rintro ⟨counter, place⟩ ⟨_, place'⟩ ⟨rfl, -⟩
  refine (aligned_expect _ _).bind fun _ _ _ => ?_
  refine aligned_requireMore.bind fun _ _ _ => ?_
  refine Expr.aligned_read.bind fun first first' hfirst => ?_
  refine (aligned_expect _ _).bind fun _ _ _ => ?_
  refine aligned_requireMore.bind fun _ _ _ => ?_
  refine Expr.aligned_read.bind fun last last' hlast => ?_
  refine (aligned_check _).bind ?_
  rintro stepped _ rfl
  split
  · refine aligned_advance.bind fun _ _ _ => ?_
    refine aligned_requireMore.bind fun _ _ _ => ?_
    exact Expr.aligned_read.bind fun step step' hstep =>
      .pure ⟨rfl, hfirst, hlast, hstep, hpos⟩
  · exact .pure ⟨rfl, hfirst, hlast, .literal _ hpos, hpos⟩

/-- Whether a parameter is repeated does not depend on positions. -/
theorem aligned_duplicate? {params params' : List (String × Position)}
    (h : List.Forall₂ (Named R) params params') (seen : List String) :
    Option.Rel (Named R) (duplicate? seen params) (duplicate? seen params') := by
  induction h generalizing seen with
  | nil => exact .none
  | @cons a b as bs hab _ ih =>
    obtain ⟨id, pos⟩ := a
    obtain ⟨_, pos'⟩ := b
    obtain ⟨rfl, hpos⟩ := hab
    simp only [duplicate?]
    split
    · exact .some ⟨rfl, hpos⟩
    · exact ih (seen ++ [id])

theorem aligned_readSubroutineHeader (inside : Option SubroutineKind) :
    LineReader.Aligned R (SubroutineHeader.Aligned R) (readSubroutineHeader inside)
      (readSubroutineHeader inside) := by
  refine aligned_advancePosition.bind fun pos pos' hpos => ?_
  split
  · exact fun _ _ _ => .error ⟨rfl, hpos, rfl⟩
  · refine (aligned_name _).bind ?_
    rintro ⟨id, place⟩ ⟨_, place'⟩ ⟨rfl, -⟩
    refine (aligned_expect _ _).bind fun opened opened' hopened => ?_
    have hget : LineReader.Aligned R (Line.Aligned R) get get := fun _ _ hlm => .ok hlm hlm
    refine hget.bind fun l m hlm => ?_
    have hbound : l.rest.length + 1 = m.rest.length + 1 :=
      congrArg (· + 1) hlm.rest.length_eq
    simp only [hbound]
    refine (aligned_parenthesised (aligned_name _) hopened _).bind fun params params' hparams => ?_
    have hnames : params.map Prod.fst = params'.map Prod.fst := by
      induction hparams with
      | nil => rfl
      | cons hab _ ih => simp only [List.map_cons, hab.1, ih]
    have hdup := aligned_duplicate? hparams []
    generalize duplicate? [] params = repeated at hdup ⊢
    generalize duplicate? [] params' = repeated' at hdup ⊢
    cases hdup with
    | @some a b hab =>
      obtain ⟨param, place⟩ := a
      obtain ⟨_, place'⟩ := b
      obtain ⟨rfl, hplace⟩ := hab
      exact aligned_throw hplace rfl
    | none => exact .pure ⟨rfl, hnames, hpos⟩

theorem aligned_readClosingName (counter : String) :
    LineReader.Aligned R Eq (readClosingName counter) (readClosingName counter) := by
  refine (aligned_name _).bind ?_
  rintro ⟨found, pos⟩ ⟨_, pos'⟩ ⟨rfl, hpos⟩
  dsimp only
  split
  · exact aligned_throw hpos rfl
  · exact .pure rfl

theorem aligned_readUntil {p q : Position} (hp : R p q) :
    LineReader.Aligned R (Expr.Aligned R) (readUntil p) (readUntil q) := by
  refine aligned_atEnd.bind ?_
  rintro ended _ rfl
  split
  · exact fun _ _ _ => .error ⟨rfl, hp, rfl⟩
  · exact Expr.aligned_read

end Stmt

end Primer
