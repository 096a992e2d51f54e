import Primer.Fault
import Primer.Stmt
import Mathlib.Data.List.Forall2

/-!
# Texts that differ in positions only

Two pieces of syntax are aligned along a relation of positions if they have the same shape and the
positions at the same place are related. Along the relation that always holds, alignment is
equality up to positions (`Stmt.Alike`).

The relation may depend on which positions occur: `Stmt.Aligned.imp` asks only about positions of
the second statement (`Stmt.positions`).
-/

set_option autoImplicit false

namespace Primer

/-- The lexemes carry the same token. -/
structure Lexeme.Aligned (R : Position → Position → Prop) (x y : Lexeme) : Prop where
  token : x.token = y.token
  position : R x.position y.position

/-- The tokens of rows. -/
def tokenRows (rows : List Row) : List (List Token) := rows.map fun row => row.map Lexeme.token

/-- Whether the fault lies within the tokens of a text or in their run: it is neither about a
character that no token takes nor about the end of the input. -/
def Fault.isWithin (f : Fault) : Bool :=
  match f.cause.family with
  | .lexical => false
  | .grammar atEnd => !atEnd
  | _ => true

/-- The faults have the same cause, and it lies within the tokens or in their run. -/
structure Fault.Aligned (R : Position → Position → Prop) (f g : Fault) : Prop where
  cause : f.cause = g.cause
  position : R f.position g.position
  isWithin : f.isWithin = true

/-- A fault that a run can give is none of a text that ends too soon. -/
theorem Fault.Aligned.notAtEnd {R : Position → Position → Prop} {f g : Fault} (h : f.Aligned R g) :
    f.atEnd = false := by
  have hwithin := h.isWithin
  simp only [Fault.isWithin, Fault.atEnd, Fault.diagnostic, Diagnostic.atEnd] at hwithin ⊢
  cases hfamily : f.cause.family <;> simp_all

/-- A fault that a run can give is none of its characters. -/
theorem Fault.Aligned.notLexical {R : Position → Position → Prop} {f g : Fault}
    (h : f.Aligned R g) : f.cause.family ≠ .lexical := by
  intro hfamily
  simpa only [Fault.isWithin, hfamily, Bool.false_eq_true] using h.isWithin

/-- Two results are both there and related, or both are aligned faults. -/
inductive ResultAligned {α : Type} (R : Position → Position → Prop) (A : α → α → Prop) :
    Except Fault α → Except Fault α → Prop
  | ok {a b : α} (hab : A a b) : ResultAligned R A (.ok a) (.ok b)
  | error {f g : Fault} (hfg : f.Aligned R g) : ResultAligned R A (.error f) (.error g)

/-- Two aligned results are both there or both faults. -/
theorem ResultAligned.ok_or_error {R : Position → Position → Prop} {α : Type} {A : α → α → Prop}
    {x y : Except Fault α} (h : ResultAligned R A x y) :
    (∃ a b, x = .ok a ∧ y = .ok b ∧ A a b) ∨
      ∃ f g, x = .error f ∧ y = .error g ∧ f.Aligned R g := by
  cases h with
  | ok hab => exact Or.inl ⟨_, _, rfl, rfl, hab⟩
  | error hfg => exact Or.inr ⟨_, _, rfl, rfl, hfg⟩

theorem ResultAligned.map {R : Position → Position → Prop} {α β : Type} {A : α → α → Prop}
    {B : β → β → Prop} {x y : Except Fault α} {f g : α → β} (h : ResultAligned R A x y)
    (hfg : ∀ a b, A a b → B (f a) (g b)) : ResultAligned R B (x.map f) (y.map g) := by
  cases h with
  | ok hab => exact .ok (hfg _ _ hab)
  | error hfault => exact .error hfault

/-- The expressions have the same shape. -/
inductive Expr.Aligned (R : Position → Position → Prop) : Expr → Expr → Prop
  | literal (v : Literal) {p q : Position} (hp : R p q) :
      Aligned R (.literal v p) (.literal v q)
  | name (id : String) {p q : Position} (hp : R p q) : Aligned R (.name id p) (.name id q)
  | unary (op : UnaryOp) {e e' : Expr} {p q : Position} (he : Aligned R e e') (hp : R p q) :
      Aligned R (.unary op e p) (.unary op e' q)
  | binary (op : BinaryOp) {l l' r r' : Expr} {p q : Position} (hl : Aligned R l l')
      (hr : Aligned R r r') (hp : R p q) : Aligned R (.binary op l r p) (.binary op l' r' q)
  | call {c c' : Expr} {es es' : List Expr} {p q : Position} (hc : Aligned R c c')
      (hes : List.Forall₂ (Aligned R) es es') (hp : R p q) :
      Aligned R (.call c es p) (.call c' es' q)

mutual

/-- The statements have the same shape. -/
inductive Stmt.Aligned (R : Position → Position → Prop) : Stmt → Stmt → Prop
  | expr {e e' : Expr} (he : e.Aligned R e') : Stmt.Aligned R (.expr e) (.expr e')
  | assign (target : Target) {e e' : Expr} {p q : Position} (he : e.Aligned R e') (hp : R p q) :
      Stmt.Aligned R (.assign target e p) (.assign target e' q)
  | define (kind : SubroutineKind) (name : String) (params : List String)
      {body body' : List Stmt} {p q : Position} (hbody : List.Forall₂ (Stmt.Aligned R) body body')
      (hp : R p q) :
      Stmt.Aligned R (.define kind name params body p) (.define kind name params body' q)
  | retNone {p q : Position} (hp : R p q) : Stmt.Aligned R (.ret none p) (.ret none q)
  | retSome {e e' : Expr} {p q : Position} (he : e.Aligned R e') (hp : R p q) :
      Stmt.Aligned R (.ret (some e) p) (.ret (some e') q)
  | branch {c c' : Expr} {body body' : List Stmt} {rest rest' : Arms} {p q : Position}
      (hc : c.Aligned R c') (hbody : List.Forall₂ (Stmt.Aligned R) body body')
      (hrest : Arms.Aligned R rest rest') (hp : R p q) :
      Stmt.Aligned R (.branch c body rest p) (.branch c' body' rest' q)
  | whileLoop {c c' : Expr} {body body' : List Stmt} {p q : Position} (hc : c.Aligned R c')
      (hbody : List.Forall₂ (Stmt.Aligned R) body body') (hp : R p q) :
      Stmt.Aligned R (.whileLoop c body p) (.whileLoop c' body' q)
  | untilLoop {c c' : Expr} {body body' : List Stmt} {p q : Position}
      (hbody : List.Forall₂ (Stmt.Aligned R) body body') (hc : c.Aligned R c') (hp : R p q) :
      Stmt.Aligned R (.untilLoop body c p) (.untilLoop body' c' q)
  | forLoop (counter : String) {first first' last last' step step' : Expr}
      {body body' : List Stmt} {p q : Position} (hfirst : first.Aligned R first')
      (hlast : last.Aligned R last') (hstep : step.Aligned R step')
      (hbody : List.Forall₂ (Stmt.Aligned R) body body') (hp : R p q) :
      Stmt.Aligned R (.forLoop counter first last step body p)
        (.forLoop counter first' last' step' body' q)

/-- The arms have the same shape. -/
inductive Arms.Aligned (R : Position → Position → Prop) : Arms → Arms → Prop
  | done : Arms.Aligned R .done .done
  | otherwise {body body' : List Stmt} (hbody : List.Forall₂ (Stmt.Aligned R) body body') :
      Arms.Aligned R (.otherwise body) (.otherwise body')
  | elseif {c c' : Expr} {body body' : List Stmt} {rest rest' : Arms} (hc : c.Aligned R c')
      (hbody : List.Forall₂ (Stmt.Aligned R) body body') (hrest : Arms.Aligned R rest rest') :
      Arms.Aligned R (.elseif c body rest) (.elseif c' body' rest')

end

/-- The statements are equal up to positions. -/
abbrev Stmt.Alike : Stmt → Stmt → Prop := Stmt.Aligned fun _ _ => True

section Heads

variable {R : Position → Position → Prop}

/-- Aligned expressions stand at aligned positions. -/
theorem Expr.Aligned.position {e e' : Expr} (h : e.Aligned R e') :
    R e.position e'.position := by
  cases h <;> assumption

/-- Aligned statements stand at aligned positions. -/
theorem Stmt.Aligned.position {s s' : Stmt} (h : s.Aligned R s') :
    R s.position s'.position := by
  cases h with
  | expr he => exact he.position
  | _ => assumption

end Heads

/-! ## Alignment of a text with itself -/

section Reflexivity

variable {R : Position → Position → Prop}

mutual

/-- An expression is aligned with itself if every position is. -/
theorem Expr.aligned_refl (hR : ∀ p, R p p) : ∀ e : Expr, e.Aligned R e
  | .literal v p => .literal v (hR p)
  | .name id p => .name id (hR p)
  | .unary op e p => .unary op (Expr.aligned_refl hR e) (hR p)
  | .binary op l r p => .binary op (Expr.aligned_refl hR l) (Expr.aligned_refl hR r) (hR p)
  | .call c es p => .call (Expr.aligned_refl hR c) (Expr.aligned_reflOf hR es) (hR p)

theorem Expr.aligned_reflOf (hR : ∀ p, R p p) :
    ∀ es : List Expr, List.Forall₂ (Expr.Aligned R) es es
  | [] => .nil
  | e :: es => .cons (Expr.aligned_refl hR e) (Expr.aligned_reflOf hR es)

end

mutual

/-- A statement is aligned with itself if every position is. -/
theorem Stmt.aligned_refl (hR : ∀ p, R p p) : ∀ s : Stmt, s.Aligned R s
  | .expr e => .expr (Expr.aligned_refl hR e)
  | .assign target e p => .assign target (Expr.aligned_refl hR e) (hR p)
  | .define kind name params body p =>
    .define kind name params (Stmt.aligned_reflOf hR body) (hR p)
  | .ret none p => .retNone (hR p)
  | .ret (some e) p => .retSome (Expr.aligned_refl hR e) (hR p)
  | .branch c body rest p =>
    .branch (Expr.aligned_refl hR c) (Stmt.aligned_reflOf hR body) (Arms.aligned_refl hR rest)
      (hR p)
  | .whileLoop c body p => .whileLoop (Expr.aligned_refl hR c) (Stmt.aligned_reflOf hR body) (hR p)
  | .untilLoop body c p => .untilLoop (Stmt.aligned_reflOf hR body) (Expr.aligned_refl hR c) (hR p)
  | .forLoop counter first last step body p =>
    .forLoop counter (Expr.aligned_refl hR first) (Expr.aligned_refl hR last)
      (Expr.aligned_refl hR step) (Stmt.aligned_reflOf hR body) (hR p)

theorem Stmt.aligned_reflOf (hR : ∀ p, R p p) :
    ∀ body : List Stmt, List.Forall₂ (Stmt.Aligned R) body body
  | [] => .nil
  | s :: rest => .cons (Stmt.aligned_refl hR s) (Stmt.aligned_reflOf hR rest)

theorem Arms.aligned_refl (hR : ∀ p, R p p) : ∀ arms : Arms, arms.Aligned R arms
  | .done => .done
  | .otherwise body => .otherwise (Stmt.aligned_reflOf hR body)
  | .elseif c body rest =>
    .elseif (Expr.aligned_refl hR c) (Stmt.aligned_reflOf hR body) (Arms.aligned_refl hR rest)

end

end Reflexivity

/-! ## The positions that occur -/

mutual

/-- The positions in an expression. -/
def Expr.positions : Expr → List Position
  | .literal _ p | .name _ p => [p]
  | .unary _ e p => p :: e.positions
  | .binary _ l r p => p :: (l.positions ++ r.positions)
  | .call c es p => p :: (c.positions ++ Expr.positionsOf es)

/-- The positions in a list of expressions. -/
def Expr.positionsOf : List Expr → List Position
  | [] => []
  | e :: es => e.positions ++ Expr.positionsOf es

end

mutual

/-- The positions in a statement. -/
def Stmt.positions : Stmt → List Position
  | .expr e => e.positions
  | .assign _ e p => p :: e.positions
  | .define _ _ _ body p => p :: Stmt.positionsOf body
  | .ret none p => [p]
  | .ret (some e) p => p :: e.positions
  | .branch c body rest p => p :: (c.positions ++ Stmt.positionsOf body ++ rest.positions)
  | .whileLoop c body p => p :: (c.positions ++ Stmt.positionsOf body)
  | .untilLoop body c p => p :: (Stmt.positionsOf body ++ c.positions)
  | .forLoop _ first last step body p =>
    p :: (first.positions ++ last.positions ++ step.positions ++ Stmt.positionsOf body)

/-- The positions in a list of statements. -/
def Stmt.positionsOf : List Stmt → List Position
  | [] => []
  | s :: rest => s.positions ++ Stmt.positionsOf rest

/-- The positions in the arms of a conditional. -/
def Arms.positions : Arms → List Position
  | .done => []
  | .otherwise body => Stmt.positionsOf body
  | .elseif c body rest => c.positions ++ Stmt.positionsOf body ++ rest.positions

end

section Weakening

variable {R Q : Position → Position → Prop}

mutual

/-- Alignment passes to a relation that holds of all positions that occur. -/
theorem Expr.Aligned.imp {e e' : Expr} (h : e.Aligned R e')
    (hQ : ∀ p q, R p q → q ∈ e'.positions → Q p q) : e.Aligned Q e' :=
  match h with
  | .literal v hp => .literal v (hQ _ _ hp (by simp [Expr.positions]))
  | .name id hp => .name id (hQ _ _ hp (by simp [Expr.positions]))
  | .unary op he hp =>
    .unary op (he.imp fun p q hr hq => hQ p q hr (by simp [Expr.positions, hq]))
      (hQ _ _ hp (by simp [Expr.positions]))
  | .binary op hl hr hp =>
    .binary op (hl.imp fun p q hr hq => hQ p q hr (by simp [Expr.positions, hq]))
      (hr.imp fun p q hr hq => hQ p q hr (by simp [Expr.positions, hq]))
      (hQ _ _ hp (by simp [Expr.positions]))
  | .call hc hes hp =>
    .call (hc.imp fun p q hr hq => hQ p q hr (by simp [Expr.positions, hq]))
      (Expr.Aligned.impOf hes fun p q hr hq => hQ p q hr (by simp [Expr.positions, hq]))
      (hQ _ _ hp (by simp [Expr.positions]))

theorem Expr.Aligned.impOf {es es' : List Expr} (h : List.Forall₂ (Expr.Aligned R) es es')
    (hQ : ∀ p q, R p q → q ∈ Expr.positionsOf es' → Q p q) :
    List.Forall₂ (Expr.Aligned Q) es es' :=
  match h with
  | .nil => .nil
  | .cons he hes =>
    .cons (he.imp fun p q hr hq => hQ p q hr (by simp [Expr.positionsOf, hq]))
      (Expr.Aligned.impOf hes fun p q hr hq => hQ p q hr (by simp [Expr.positionsOf, hq]))

end

mutual

/-- Alignment passes to a relation that holds of all positions that occur. -/
theorem Stmt.Aligned.imp {s s' : Stmt} (h : s.Aligned R s')
    (hQ : ∀ p q, R p q → q ∈ s'.positions → Q p q) : s.Aligned Q s' :=
  match h with
  | .expr he => .expr (he.imp fun p q hr hq => hQ p q hr (by simp [Stmt.positions, hq]))
  | .assign target he hp =>
    .assign target (he.imp fun p q hr hq => hQ p q hr (by simp [Stmt.positions, hq]))
      (hQ _ _ hp (by simp [Stmt.positions]))
  | .define kind name params hbody hp =>
    .define kind name params
      (Stmt.Aligned.impOf hbody fun p q hr hq => hQ p q hr (by simp [Stmt.positions, hq]))
      (hQ _ _ hp (by simp [Stmt.positions]))
  | .retNone hp => .retNone (hQ _ _ hp (by simp [Stmt.positions]))
  | .retSome he hp =>
    .retSome (he.imp fun p q hr hq => hQ p q hr (by simp [Stmt.positions, hq]))
      (hQ _ _ hp (by simp [Stmt.positions]))
  | .branch hc hbody hrest hp =>
    .branch (hc.imp fun p q hr hq => hQ p q hr (by simp [Stmt.positions, hq]))
      (Stmt.Aligned.impOf hbody fun p q hr hq => hQ p q hr (by simp [Stmt.positions, hq]))
      (hrest.imp fun p q hr hq => hQ p q hr (by simp [Stmt.positions, hq]))
      (hQ _ _ hp (by simp [Stmt.positions]))
  | .whileLoop hc hbody hp =>
    .whileLoop (hc.imp fun p q hr hq => hQ p q hr (by simp [Stmt.positions, hq]))
      (Stmt.Aligned.impOf hbody fun p q hr hq => hQ p q hr (by simp [Stmt.positions, hq]))
      (hQ _ _ hp (by simp [Stmt.positions]))
  | .untilLoop hbody hc hp =>
    .untilLoop
      (Stmt.Aligned.impOf hbody fun p q hr hq => hQ p q hr (by simp [Stmt.positions, hq]))
      (hc.imp fun p q hr hq => hQ p q hr (by simp [Stmt.positions, hq]))
      (hQ _ _ hp (by simp [Stmt.positions]))
  | .forLoop counter hfirst hlast hstep hbody hp =>
    .forLoop counter (hfirst.imp fun p q hr hq => hQ p q hr (by simp [Stmt.positions, hq]))
      (hlast.imp fun p q hr hq => hQ p q hr (by simp [Stmt.positions, hq]))
      (hstep.imp fun p q hr hq => hQ p q hr (by simp [Stmt.positions, hq]))
      (Stmt.Aligned.impOf hbody fun p q hr hq => hQ p q hr (by simp [Stmt.positions, hq]))
      (hQ _ _ hp (by simp [Stmt.positions]))

/-- A wider relation serves, and it has to hold only of positions that occur. -/
theorem Stmt.Aligned.impOf {body body' : List Stmt}
    (h : List.Forall₂ (Stmt.Aligned R) body body')
    (hQ : ∀ p q, R p q → q ∈ Stmt.positionsOf body' → Q p q) :
    List.Forall₂ (Stmt.Aligned Q) body body' :=
  match h with
  | .nil => .nil
  | .cons hs hrest =>
    .cons (hs.imp fun p q hr hq => hQ p q hr (by simp [Stmt.positionsOf, hq]))
      (Stmt.Aligned.impOf hrest fun p q hr hq => hQ p q hr (by simp [Stmt.positionsOf, hq]))

theorem Arms.Aligned.imp {arms arms' : Arms} (h : arms.Aligned R arms')
    (hQ : ∀ p q, R p q → q ∈ arms'.positions → Q p q) : arms.Aligned Q arms' :=
  match h with
  | .done => .done
  | .otherwise hbody =>
    .otherwise (Stmt.Aligned.impOf hbody fun p q hr hq => hQ p q hr (by simp [Arms.positions, hq]))
  | .elseif hc hbody hrest =>
    .elseif (hc.imp fun p q hr hq => hQ p q hr (by simp [Arms.positions, hq]))
      (Stmt.Aligned.impOf hbody fun p q hr hq => hQ p q hr (by simp [Arms.positions, hq]))
      (hrest.imp fun p q hr hq => hQ p q hr (by simp [Arms.positions, hq]))

end

end Weakening

section Covering

variable {R : Position → Position → Prop}

mutual

/-- Every position of the second expression faces one of the first. -/
theorem Expr.Aligned.covers {e e' : Expr} (h : e.Aligned R e') :
    ∀ q ∈ e'.positions, ∃ p, R p q := by
  intro q hq
  match h with
  | .literal v hp | .name id hp =>
    rw [Expr.positions, List.mem_singleton] at hq
    exact ⟨_, hq ▸ hp⟩
  | .unary op he hp =>
    rw [Expr.positions, List.mem_cons] at hq
    rcases hq with rfl | hq
    · exact ⟨_, hp⟩
    · exact he.covers q hq
  | .binary op hl hr hp =>
    rw [Expr.positions, List.mem_cons, List.mem_append] at hq
    rcases hq with rfl | hq | hq
    · exact ⟨_, hp⟩
    · exact hl.covers q hq
    · exact hr.covers q hq
  | .call hc hes hp =>
    rw [Expr.positions, List.mem_cons, List.mem_append] at hq
    rcases hq with rfl | hq | hq
    · exact ⟨_, hp⟩
    · exact hc.covers q hq
    · exact Expr.Aligned.coversOf hes q hq

theorem Expr.Aligned.coversOf {es es' : List Expr} (h : List.Forall₂ (Expr.Aligned R) es es') :
    ∀ q ∈ Expr.positionsOf es', ∃ p, R p q := by
  intro q hq
  match h with
  | .nil => exact absurd hq List.not_mem_nil
  | .cons he hes =>
    rw [Expr.positionsOf, List.mem_append] at hq
    rcases hq with hq | hq
    · exact he.covers q hq
    · exact Expr.Aligned.coversOf hes q hq

end

mutual

/-- Every position of the second statement faces one of the first. -/
theorem Stmt.Aligned.covers {s s' : Stmt} (h : s.Aligned R s') :
    ∀ q ∈ s'.positions, ∃ p, R p q := by
  intro q hq
  match h with
  | .expr he => exact he.covers q hq
  | .assign target he hp | .retSome he hp =>
    rw [Stmt.positions, List.mem_cons] at hq
    rcases hq with rfl | hq
    · exact ⟨_, hp⟩
    · exact he.covers q hq
  | .define kind name params hbody hp =>
    rw [Stmt.positions, List.mem_cons] at hq
    rcases hq with rfl | hq
    · exact ⟨_, hp⟩
    · exact Stmt.Aligned.coversOf hbody q hq
  | .retNone hp =>
    rw [Stmt.positions, List.mem_singleton] at hq
    exact ⟨_, hq ▸ hp⟩
  | .branch hc hbody hrest hp =>
    simp only [Stmt.positions, List.mem_cons, List.mem_append] at hq
    rcases hq with rfl | (hq | hq) | hq
    · exact ⟨_, hp⟩
    · exact hc.covers q hq
    · exact Stmt.Aligned.coversOf hbody q hq
    · exact hrest.covers q hq
  | .whileLoop hc hbody hp =>
    rw [Stmt.positions, List.mem_cons, List.mem_append] at hq
    rcases hq with rfl | hq | hq
    · exact ⟨_, hp⟩
    · exact hc.covers q hq
    · exact Stmt.Aligned.coversOf hbody q hq
  | .untilLoop hbody hc hp =>
    rw [Stmt.positions, List.mem_cons, List.mem_append] at hq
    rcases hq with rfl | hq | hq
    · exact ⟨_, hp⟩
    · exact Stmt.Aligned.coversOf hbody q hq
    · exact hc.covers q hq
  | .forLoop counter hfirst hlast hstep hbody hp =>
    simp only [Stmt.positions, List.mem_cons, List.mem_append] at hq
    rcases hq with rfl | ((hq | hq) | hq) | hq
    · exact ⟨_, hp⟩
    · exact hfirst.covers q hq
    · exact hlast.covers q hq
    · exact hstep.covers q hq
    · exact Stmt.Aligned.coversOf hbody q hq

/-- Every position in the second block is aligned with some position. -/
theorem Stmt.Aligned.coversOf {body body' : List Stmt}
    (h : List.Forall₂ (Stmt.Aligned R) body body') :
    ∀ q ∈ Stmt.positionsOf body', ∃ p, R p q := by
  intro q hq
  match h with
  | .nil => exact absurd hq List.not_mem_nil
  | .cons hs hrest =>
    rw [Stmt.positionsOf, List.mem_append] at hq
    rcases hq with hq | hq
    · exact hs.covers q hq
    · exact Stmt.Aligned.coversOf hrest q hq

theorem Arms.Aligned.covers {arms arms' : Arms} (h : arms.Aligned R arms') :
    ∀ q ∈ arms'.positions, ∃ p, R p q := by
  intro q hq
  match h with
  | .done => exact absurd hq List.not_mem_nil
  | .otherwise hbody => exact Stmt.Aligned.coversOf hbody q hq
  | .elseif hc hbody hrest =>
    simp only [Arms.positions, List.mem_append] at hq
    rcases hq with (hq | hq) | hq
    · exact hc.covers q hq
    · exact Stmt.Aligned.coversOf hbody q hq
    · exact hrest.covers q hq

end

end Covering

end Primer
