import Primer.Proofs.Rendering
import Primer.Stmt.Parser

/-!
# Statements that are read are well formed

A `Node` is a tree in which any construct may stand at any place, and `Node.WellFormed` says where
constructs may stand in a program. The types of statements and expressions leave little of it open:
that values are expressions, that a conditional has a first arm and that a counter is a plain name
holds of every statement. What remains is where a return and a subroutine may stand and that
parameters differ, which is `Stmt.wellFormed` (`Stmt.wellFormed_node`).

The readers give only such statements, from any place in the rows (`Stmt.givesWellFormed`): what a
reader gives is followed through the recursion with one rule for each way of combining readers.
-/

set_option autoImplicit false

namespace Primer

/-! ## Trees -/

/-- A tree of constructs. -/
inductive Node where
  | literal (value : Literal) (pos : Position)
  | identifier (target : Target) (pos : Position)
  | unary (op : UnaryOp) (operand : Node) (pos : Position)
  | binary (op : BinaryOp) (left right : Node) (pos : Position)
  | call (callee : Node) (arguments : List Node) (pos : Position)
  | assignment (target : Target) (value : Node) (pos : Position)
  | definition (kind : SubroutineKind) (name : String) (params : List String) (body : List Node)
      (pos : Position)
  | ret (value : Option Node) (pos : Position)
  | conditional (arms : List (Node × List Node)) (final : Option (List Node)) (pos : Position)
  | whileLoop (condition : Node) (body : List Node) (pos : Position)
  | untilLoop (body : List Node) (condition : Node) (pos : Position)
  | forLoop (counter : Target) (first last step : Node) (body : List Node) (pos : Position)

/-- The tree is an expression: its names are plain, and its operands, its callees and its arguments
are expressions. -/
inductive Node.IsExpr : Node → Prop
  | literal (value : Literal) (pos : Position) : IsExpr (.literal value pos)
  | name (id : String) (pos : Position) : IsExpr (.identifier (.plain id) pos)
  | unary (op : UnaryOp) {operand : Node} (h : operand.IsExpr) (pos : Position) :
      IsExpr (.unary op operand pos)
  | binary (op : BinaryOp) {left right : Node} (hleft : left.IsExpr) (hright : right.IsExpr)
      (pos : Position) : IsExpr (.binary op left right pos)
  | call {callee : Node} {arguments : List Node} (hcallee : callee.IsExpr)
      (harguments : ∀ n ∈ arguments, n.IsExpr) (pos : Position) :
      IsExpr (.call callee arguments pos)

/-- The tree may stand as a statement in the given subroutine, or outside of all. -/
inductive Node.WellFormed : Option SubroutineKind → Node → Prop
  | expr {inside : Option SubroutineKind} {n : Node} (h : n.IsExpr) : WellFormed inside n
  | assignment {inside : Option SubroutineKind} (target : Target) {value : Node}
      (hvalue : value.IsExpr) (pos : Position) : WellFormed inside (.assignment target value pos)
  | definition (kind : SubroutineKind) (name : String) {params : List String} {body : List Node}
      (hparams : params.Nodup) (hbody : ∀ n ∈ body, WellFormed (some kind) n) (pos : Position) :
      WellFormed none (.definition kind name params body pos)
  | leave (kind : SubroutineKind) (pos : Position) : WellFormed (some kind) (.ret none pos)
  | giveBack {value : Node} (hvalue : value.IsExpr) (pos : Position) :
      WellFormed (some .function) (.ret (some value) pos)
  | conditional {inside : Option SubroutineKind} {arms : List (Node × List Node)}
      {final : Option (List Node)} (hsome : arms ≠ []) (hguards : ∀ arm ∈ arms, arm.1.IsExpr)
      (hbodies : ∀ arm ∈ arms, ∀ n ∈ arm.2, WellFormed inside n)
      (hfinal : ∀ body, final = some body → ∀ n ∈ body, WellFormed inside n) (pos : Position) :
      WellFormed inside (.conditional arms final pos)
  | whileLoop {inside : Option SubroutineKind} {condition : Node} {body : List Node}
      (hcondition : condition.IsExpr) (hbody : ∀ n ∈ body, WellFormed inside n) (pos : Position) :
      WellFormed inside (.whileLoop condition body pos)
  | untilLoop {inside : Option SubroutineKind} {condition : Node} {body : List Node}
      (hbody : ∀ n ∈ body, WellFormed inside n) (hcondition : condition.IsExpr) (pos : Position) :
      WellFormed inside (.untilLoop body condition pos)
  | forLoop {inside : Option SubroutineKind} (counter : String) {first last step : Node}
      {body : List Node} (hfirst : first.IsExpr) (hlast : last.IsExpr) (hstep : step.IsExpr)
      (hbody : ∀ n ∈ body, WellFormed inside n) (pos : Position) :
      WellFormed inside (.forLoop (.plain counter) first last step body pos)

mutual

/-- The tree of an expression. -/
def Expr.node : Expr → Node
  | .literal value pos => .literal value pos
  | .name id pos => .identifier (.plain id) pos
  | .unary op e pos => .unary op e.node pos
  | .binary op l r pos => .binary op l.node r.node pos
  | .call c es pos => .call c.node (Expr.nodes es) pos

/-- The trees of expressions. -/
def Expr.nodes : List Expr → List Node
  | [] => []
  | e :: es => e.node :: Expr.nodes es

end

mutual

/-- The tree of a statement. -/
def Stmt.node : Stmt → Node
  | .expr e => e.node
  | .assign target e pos => .assignment target e.node pos
  | .define kind name params body pos => .definition kind name params (Stmt.nodes body) pos
  | .ret none pos => .ret none pos
  | .ret (some e) pos => .ret (some e.node) pos
  | .branch c body rest pos =>
    .conditional ((c.node, Stmt.nodes body) :: rest.guarded) rest.final? pos
  | .whileLoop c body pos => .whileLoop c.node (Stmt.nodes body) pos
  | .untilLoop body c pos => .untilLoop (Stmt.nodes body) c.node pos
  | .forLoop counter first last step body pos =>
    .forLoop (.plain counter) first.node last.node step.node (Stmt.nodes body) pos

/-- The trees of statements. -/
def Stmt.nodes : List Stmt → List Node
  | [] => []
  | s :: rest => s.node :: Stmt.nodes rest

/-- The further arms that have a condition. -/
def Arms.guarded : Arms → List (Node × List Node)
  | .done | .otherwise _ => []
  | .elseif c body rest => (c.node, Stmt.nodes body) :: rest.guarded

/-- The arm without a condition. -/
def Arms.final? : Arms → Option (List Node)
  | .done => none
  | .otherwise body => some (Stmt.nodes body)
  | .elseif _ _ rest => rest.final?

end

mutual

theorem Expr.isExpr_node (e : Expr) : e.node.IsExpr := by
  match e with
  | .literal value pos => exact .literal value pos
  | .name id pos => exact .name id pos
  | .unary op e pos => exact .unary op e.isExpr_node pos
  | .binary op l r pos => exact .binary op l.isExpr_node r.isExpr_node pos
  | .call c es pos => exact .call c.isExpr_node (Expr.isExpr_nodes es) pos

theorem Expr.isExpr_nodes (es : List Expr) : ∀ n ∈ Expr.nodes es, n.IsExpr := by
  intro n hn
  match es with
  | [] => exact absurd hn List.not_mem_nil
  | e :: es =>
    rcases List.mem_cons.1 hn with rfl | hn
    · exact e.isExpr_node
    · exact Expr.isExpr_nodes es n hn

end

mutual

/-- The tree of a statement that can stand in a subroutine is well formed there. -/
theorem Stmt.wellFormed_node {inside : Option SubroutineKind} {s : Stmt}
    (h : s.wellFormed inside = true) : s.node.WellFormed inside := by
  match s with
  | .expr e => exact .expr e.isExpr_node
  | .assign target e pos => exact .assignment target e.isExpr_node pos
  | .define kind name params body pos =>
    simp only [Stmt.wellFormed, Bool.and_eq_true, decide_eq_true_eq,
      Option.isNone_iff_eq_none] at h
    obtain ⟨⟨rfl, hparams⟩, hbody⟩ := h
    exact .definition kind name hparams (Stmt.wellFormed_nodes hbody) pos
  | .ret none pos =>
    obtain ⟨kind, rfl⟩ := Option.isSome_iff_exists.1 h
    exact .leave kind pos
  | .ret (some e) pos =>
    obtain rfl : inside = some .function := eq_of_beq h
    exact .giveBack e.isExpr_node pos
  | .branch c body rest pos =>
    simp only [Stmt.wellFormed, Bool.and_eq_true] at h
    obtain ⟨hbody, hrest⟩ := h
    -- the first arm is written apart from the others
    obtain ⟨hguards, hbodies, hfinal⟩ := Arms.wellFormed_nodes hrest
    refine .conditional (List.cons_ne_nil _ _) (fun arm harm => ?_) (fun arm harm => ?_) hfinal pos
    · rcases List.mem_cons.1 harm with rfl | harm
      · exact c.isExpr_node
      · exact hguards arm harm
    · rcases List.mem_cons.1 harm with rfl | harm
      · exact Stmt.wellFormed_nodes hbody
      · exact hbodies arm harm
  | .whileLoop c body pos =>
    exact .whileLoop c.isExpr_node (Stmt.wellFormed_nodes h) pos
  | .untilLoop body c pos =>
    exact .untilLoop (Stmt.wellFormed_nodes h) c.isExpr_node pos
  | .forLoop counter first last step body pos =>
    exact .forLoop counter first.isExpr_node last.isExpr_node step.isExpr_node
      (Stmt.wellFormed_nodes h) pos

/-- The nodes of a well-formed body are well-formed. -/
theorem Stmt.wellFormed_nodes {inside : Option SubroutineKind} {body : List Stmt}
    (h : Stmt.wellFormedAll inside body = true) :
    ∀ n ∈ Stmt.nodes body, n.WellFormed inside := by
  intro n hn
  match body with
  | [] => exact absurd hn List.not_mem_nil
  | s :: rest =>
    simp only [Stmt.wellFormedAll, Bool.and_eq_true] at h
    rcases List.mem_cons.1 hn with rfl | hn
    · exact Stmt.wellFormed_node h.1
    · exact Stmt.wellFormed_nodes h.2 n hn

/-- The nodes in well-formed arms are expressions and well-formed bodies. -/
theorem Arms.wellFormed_nodes {inside : Option SubroutineKind} {arms : Arms}
    (h : arms.wellFormed inside = true) :
    (∀ arm ∈ arms.guarded, arm.1.IsExpr) ∧
      (∀ arm ∈ arms.guarded, ∀ n ∈ arm.2, n.WellFormed inside) ∧
      ∀ body, arms.final? = some body → ∀ n ∈ body, n.WellFormed inside := by
  match arms with
  | .done => exact ⟨nofun, nofun, nofun⟩
  | .otherwise body =>
    refine ⟨nofun, nofun, fun nodes hnodes => ?_⟩
    obtain rfl : Stmt.nodes body = nodes := Option.some.inj hnodes
    exact Stmt.wellFormed_nodes h
  | .elseif c body rest =>
    simp only [Arms.wellFormed, Bool.and_eq_true] at h
    obtain ⟨hguards, hbodies, hfinal⟩ := Arms.wellFormed_nodes h.2
    refine ⟨fun arm harm => ?_, fun arm harm => ?_, hfinal⟩
    · rcases List.mem_cons.1 harm with rfl | harm
      · exact c.isExpr_node
      · exact hguards arm harm
    · rcases List.mem_cons.1 harm with rfl | harm
      · exact Stmt.wellFormed_nodes h.1
      · exact hbodies arm harm

end

/-! ## What readers give -/

section Giving

variable {σ α β : Type} {P : α → Prop} {Q : β → Prop}

/-- Whatever the reader gives has the property. -/
def Gives (x : EStateM Fault σ α) (P : α → Prop) : Prop :=
  ∀ s a s', x s = .ok a s' → P a

theorem gives_true (x : EStateM Fault σ α) : Gives x fun _ => True := fun _ _ _ _ => trivial

theorem gives_pure {a : α} (h : P a) : Gives (pure a : EStateM Fault σ α) P := by
  intro s b s' hb
  obtain ⟨rfl, -⟩ := EStateM.Result.ok.inj hb
  exact h

theorem gives_throw (fault : Fault) : Gives (throw fault : EStateM Fault σ α) P := by
  intro s a s' h
  cases h

/-- Two readers in a row give what the second gives. -/
theorem Gives.bind {x : EStateM Fault σ α} {f : α → EStateM Fault σ β} (hx : Gives x P)
    (hf : ∀ a, P a → Gives (f a) Q) : Gives (x >>= f) Q := by
  intro s b s' h
  change EStateM.bind x f s = _ at h
  simp only [EStateM.bind] at h
  split at h
  · next a s₁ ha => exact hf a (hx s a s₁ ha) s₁ b s' h
  · cases h

/-- What is given after a step about which nothing need be known. -/
theorem gives_after {x : EStateM Fault σ α} {f : α → EStateM Fault σ β} (hf : ∀ a, Gives (f a) Q) :
    Gives (x >>= f) Q :=
  (gives_true x).bind fun a _ => hf a

theorem Gives.map {x : EStateM Fault σ α} {f : α → β} (hx : Gives x fun a => Q (f a)) :
    Gives (f <$> x) Q := by
  intro s b s' h
  change EStateM.map f x s = _ at h
  simp only [EStateM.map] at h
  split at h
  · next a s₁ ha =>
    obtain ⟨rfl, -⟩ := EStateM.Result.ok.inj h
    exact hx s a s₁ ha
  · cases h

/-- What is read from a row is what its reader gives. -/
theorem Gives.onLine {reader : LineReader α} (h : Gives reader P) :
    Gives (RowReader.onLine reader) P := by
  intro c a c' hc
  simp only [RowReader.onLine] at hc
  split at hc
  · split at hc
    · next b l hb =>
      obtain ⟨rfl, -⟩ := EStateM.Result.ok.inj hc
      exact h _ _ _ hb
    · cases hc
  · split at hc
    · next b l hb =>
      obtain ⟨rfl, -⟩ := EStateM.Result.ok.inj hc
      exact h _ _ _ hb
    · cases hc

theorem Gives.header {reader : LineReader α} (h : Gives reader P) :
    Gives (Stmt.header reader) P :=
  h.onLine.bind fun _ ha => gives_after fun _ => gives_pure ha

theorem gives_incomplete : Gives (RowReader.onLine (LineReader.failAtPrevious .incomplete)) P :=
  Gives.onLine fun _ _ _ h => nomatch h

end Giving

/-! ## Statements -/

namespace Stmt

open LineReader RowReader

/-- An assignment is well-formed everywhere. -/
theorem gives_readAssignment {inside : Option SubroutineKind} :
    Gives readAssignment fun s => s.wellFormed inside = true := by
  apply gives_after
  rintro ⟨sealing, isGlobal⟩
  apply gives_after
  rintro ⟨id, pos⟩
  refine gives_after fun sign => gives_after fun last => ?_
  cases last with
  | true => exact gives_after fun _ => gives_after fun value => gives_pure rfl
  | false => exact gives_after fun value => gives_pure rfl

/-- A return stands in a subroutine, and its value in a function. -/
theorem gives_readReturn (inside : Option SubroutineKind) :
    Gives (readReturn inside) fun s => s.wellFormed inside = true := by
  refine gives_after fun pos => ?_
  cases inside with
  | none => exact gives_throw _
  | some kind =>
    refine gives_after fun last => ?_
    cases last with
    | true => exact gives_pure rfl
    | false =>
      cases kind with
      | procedure => exact gives_throw _
      | function => exact gives_after fun value => gives_pure rfl

/-- Names among which no duplicate is found are distinct, and none was seen before. -/
theorem nodup_of_duplicate? {seen : List String} {params : List (String × Position)}
    (h : duplicate? seen params = none) :
    (params.map Prod.fst).Nodup ∧ ∀ name ∈ params.map Prod.fst, name ∉ seen := by
  -- by induction on the parameters; those seen before grow
  induction params generalizing seen with
  | nil => exact ⟨List.nodup_nil, nofun⟩
  | cons param params ih =>
    obtain ⟨id, pos⟩ := param
    simp only [duplicate?] at h
    split at h
    · cases h
    · next hid =>
      obtain ⟨hnodup, hfresh⟩ := ih h
      simp only [List.mem_append, List.mem_singleton, not_or] at hfresh
      refine ⟨List.nodup_cons.2 ⟨fun hmem => (hfresh id hmem).2 rfl, hnodup⟩, ?_⟩
      intro name hname
      rcases List.mem_cons.1 hname with rfl | hname
      · simpa using hid
      · exact (hfresh name hname).1

/-- A subroutine stands in no other, and its parameters are distinct. -/
theorem gives_readSubroutineHeader (inside : Option SubroutineKind) :
    Gives (readSubroutineHeader inside) fun h => inside = none ∧ h.params.Nodup := by
  refine gives_after fun pos => ?_
  cases inside with
  | some kind => exact (gives_throw (P := fun _ => False) _).bind fun _ => False.elim
  | none =>
    apply gives_after
    rintro ⟨id, _⟩
    refine gives_after fun opened => gives_after fun line => gives_after fun params => ?_
    cases hrepeated : duplicate? [] params with
    | some repeated => exact gives_throw _
    | none => exact gives_pure ⟨rfl, (nodup_of_duplicate? hrepeated).1⟩

/-- The readers with the given bound give only what may stand where they read. -/
structure GivesWellFormed (n : Nat) : Prop where
  stmt (inside : Option SubroutineKind) :
    Gives (readStmt n inside) fun s => s.wellFormed inside = true
  body (inside : Option SubroutineKind) (block : Block) (opened : Position) :
    Gives (readBody n inside block opened) fun r => Stmt.wellFormedAll inside r.1 = true
  arm (inside : Option SubroutineKind) (opened : Position) :
    Gives (readArm n inside opened) fun r =>
      Stmt.wellFormedAll inside r.1 = true ∧ r.2.wellFormed inside = true
  subroutine (inside : Option SubroutineKind) (kind : SubroutineKind) :
    Gives (readSubroutine n inside kind) fun s => s.wellFormed inside = true

namespace GivesWellFormed

variable {n : Nat}

/-- Statements that are read are well-formed if shorter ones are. -/
theorem stmt_succ (h : GivesWellFormed n) (inside : Option SubroutineKind) :
    Gives (readStmt (n + 1) inside) fun s => s.wellFormed inside = true := by
  have hvalue : Gives (Stmt.expr <$> Stmt.header Expr.read) fun s => s.wellFormed inside = true :=
    Gives.map fun _ _ _ _ => rfl
  rw [readStmt]
  refine gives_after fun next => ?_
  split
  · exact gives_incomplete
  · -- a conditional
    refine gives_after fun pos => gives_after fun condition => ?_
    refine (h.arm inside pos).bind ?_
    rintro ⟨body, rest⟩ ⟨hbody, hrest⟩
    exact gives_pure (by rw [Stmt.wellFormed, hbody, hrest]; rfl)
  · -- a loop with its condition first
    refine gives_after fun pos => gives_after fun condition => ?_
    refine (h.body inside .whileLoop pos).bind ?_
    rintro ⟨body, _⟩ hbody
    exact gives_after fun _ => gives_pure hbody
  · -- a loop with its condition last
    refine gives_after fun pos => gives_after fun _ => ?_
    refine (h.body inside .untilLoop pos).bind ?_
    rintro ⟨body, ending⟩ hbody
    exact gives_after fun condition => gives_pure hbody
  · -- a counting loop
    refine gives_after fun header => ?_
    refine (h.body inside (.forLoop header.counter) header.position).bind ?_
    rintro ⟨body, _⟩ hbody
    exact gives_after fun _ => gives_pure hbody
  · exact h.subroutine inside .procedure
  · exact h.subroutine inside .function
  · exact (gives_readReturn inside).header
  · exact gives_readAssignment.header
  · exact gives_readAssignment.header
  · split
    · exact gives_throw _
    split
    · exact gives_throw _
    · exact hvalue
  · refine gives_after fun follows => ?_
    cases follows with
    | true => exact gives_readAssignment.header
    | false => exact hvalue
  · split
    · exact gives_throw _
    · exact hvalue

theorem body_succ (h : GivesWellFormed n) (inside : Option SubroutineKind) (block : Block)
    (opened : Position) :
    Gives (readBody (n + 1) inside block opened) fun r =>
      Stmt.wellFormedAll inside r.1 = true := by
  rw [readBody]
  refine gives_after fun more => ?_
  cases more with
  | false => exact gives_throw _
  | true =>
    refine gives_after fun ending => ?_
    cases ending with
    | some ending => exact gives_after fun _ => gives_pure rfl
    | none =>
      refine (h.stmt inside).bind fun s hs => (h.body inside block opened).bind ?_
      rintro ⟨rest, ending⟩ hrest
      exact gives_pure (by rw [Stmt.wellFormedAll, hs, hrest]; rfl)

theorem arm_succ (h : GivesWellFormed n) (inside : Option SubroutineKind) (opened : Position) :
    Gives (readArm (n + 1) inside opened) fun r =>
      Stmt.wellFormedAll inside r.1 = true ∧ r.2.wellFormed inside = true := by
  rw [readArm]
  refine (h.body inside .branch opened).bind ?_
  rintro ⟨body, ending⟩ hbody
  dsimp only
  split
  · -- a further condition
    refine gives_after fun condition => (h.arm inside opened).bind ?_
    rintro ⟨next, rest⟩ ⟨hnext, hrest⟩
    exact gives_pure ⟨hbody, by rw [Arms.wellFormed, hnext, hrest]; rfl⟩
  · -- the final alternative
    refine gives_after fun _ => (h.body inside .branch opened).bind ?_
    rintro ⟨final, last⟩ hfinal
    dsimp only
    split
    · exact gives_after fun _ => gives_after fun _ => gives_pure ⟨hbody, hfinal⟩
    · exact gives_after fun _ => gives_pure ⟨hbody, hfinal⟩
  · exact gives_after fun _ => gives_pure ⟨hbody, rfl⟩

theorem subroutine_succ (h : GivesWellFormed n) (inside : Option SubroutineKind)
    (kind : SubroutineKind) :
    Gives (readSubroutine (n + 1) inside kind) fun s => s.wellFormed inside = true := by
  rw [readSubroutine]
  refine (gives_readSubroutineHeader inside).header.bind ?_
  rintro header ⟨rfl, hparams⟩
  refine (h.body (some kind) (.subroutine kind) header.position).bind ?_
  rintro ⟨body, ending⟩ hbody
  have hdefine : Stmt.wellFormed none
      (.define kind header.name header.params body header.position) = true := by
    rw [Stmt.wellFormed, hbody, decide_eq_true hparams]
    rfl
  dsimp only
  split
  · exact gives_after fun _ => gives_after fun _ => gives_pure hdefine
  · exact gives_after fun _ => gives_pure hdefine

end GivesWellFormed

/-- The readers give well-formed statements, by induction on the bound of their recursion. -/
theorem givesWellFormed (n : Nat) : GivesWellFormed n := by
  induction n with
  | zero =>
    refine ⟨fun _ => ?_, fun _ _ _ => ?_, fun _ _ => ?_, fun _ _ => ?_⟩
    · rw [readStmt]; exact gives_incomplete
    · rw [readBody]; exact gives_incomplete
    · rw [readArm]; exact gives_incomplete
    · rw [readSubroutine]; exact gives_incomplete
  | succ n ih => exact ⟨ih.stmt_succ, ih.body_succ, ih.arm_succ, ih.subroutine_succ⟩

/-- The next statement of a text is well-formed at the top level. -/
theorem gives_wellFormed (bound : Nat) :
    Gives (nextWithin bound) fun found => ∀ s, found = some s → s.wellFormed none = true := by
  refine gives_after fun more => ?_
  cases more with
  | false => exact gives_pure nofun
  | true =>
    refine Gives.map fun c s c' hread t ht => ?_
    obtain rfl : s = t := Option.some.inj ht
    exact (givesWellFormed bound).stmt none c s c' hread

/-- **Every statement that is read is well formed**, from whatever place in the rows. -/
theorem gives_nextWithin (bound : Nat) :
    Gives (nextWithin bound) fun found => ∀ s, found = some s → s.node.WellFormed none :=
  fun c found c' hread s hs => Stmt.wellFormed_node (gives_wellFormed bound c found c' hread s hs)

end Stmt

end Primer
