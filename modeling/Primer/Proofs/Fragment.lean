import Primer.Proofs.Rules

/-!
# Fragments of the language

A fragment says which names statements use, which tests they pass, and which values a run can come
upon. Its laws close the circle: the values that statements of the fragment build or look up are of
the fragment again, and so are the bodies that these values bring along.
-/

set_option autoImplicit false

namespace Primer

mutual

/-- The names in an expression. -/
def Expr.names : Expr → List String
  | .literal _ _ => []
  | .name id _ => [id]
  | .unary _ e _ => e.names
  | .binary _ l r _ => l.names ++ r.names
  | .call callee arguments _ => callee.names ++ Expr.namesOf arguments

/-- The names in expressions. -/
def Expr.namesOf : List Expr → List String
  | [] => []
  | e :: es => e.names ++ Expr.namesOf es

end

/-- What a statement evaluates itself, apart from the statements inside it. -/
def Stmt.exprs : Stmt → List Expr
  | .expr e | .assign _ e _ | .ret (some e) _ | .whileLoop e _ _ | .untilLoop _ e _ => [e]
  | .define _ _ _ _ _ | .ret none _ => []
  | .branch c _ rest _ => c :: rest.conditions
  | .forLoop _ first last step _ _ => [first, last, step]

/-- A fragment: names that are used, a test of statements, and values that can be come upon. -/
structure Fragment where
  names : String → Prop
  test : Stmt → Bool
  values : Value → Prop
  evaluated {s : Stmt} (h : test s = true) : ∀ e ∈ s.exprs, ∀ x ∈ e.names, names x
  written {s : Stmt} {target : Target} (h : test s = true) (htarget : s.target? = some target) :
    names target.name
  scalar {v : Value} (h : v.IsScalar) : values v
  native (n : Native) : values (.callable (.native n))
  body {s : Subroutine} (h : values (.callable (.user s))) : Stmt.allOf test s.body = true
  defined {kind : SubroutineKind} {name : String} {params : List String} {body : List Stmt}
    {pos : Position} (h : (Stmt.define kind name params body pos).all test = true) :
    values (.callable (.user ⟨kind, name, params, body⟩))

/-- A block passes a test as all of its statements do. -/
theorem Stmt.forall_of_allOf {p : Stmt → Bool} {body : List Stmt} (h : Stmt.allOf p body = true) :
    ∀ s ∈ body, s.all p = true := by
  induction body with
  | nil => exact fun _ hs => absurd hs List.not_mem_nil
  | cons s rest ih =>
    simp only [Stmt.allOf, Bool.and_eq_true] at h
    exact List.forall_mem_cons.2 ⟨h.1, ih h.2⟩

/-- Arms pass a test as all of their bodies do. -/
theorem Arms.forall_of_all {p : Stmt → Bool} {rest : Arms} (h : rest.all p = true) :
    ∀ body ∈ rest.bodies, Stmt.allOf p body = true := by
  cases rest with
  | done => exact fun _ hbody => absurd hbody List.not_mem_nil
  | otherwise body => exact List.forall_mem_singleton.2 h
  | elseif c body rest =>
    simp only [Arms.all, Bool.and_eq_true] at h
    exact List.forall_mem_cons.2 ⟨h.1, forall_of_all h.2⟩

theorem Expr.forall_of_namesOf {P : String → Prop} {es : List Expr}
    (h : ∀ x ∈ Expr.namesOf es, P x) : ∀ e ∈ es, ∀ x ∈ e.names, P x := by
  induction es with
  | nil => exact fun _ he => absurd he List.not_mem_nil
  | cons e es ih =>
    simp only [Expr.namesOf, List.forall_mem_append] at h
    exact List.forall_mem_cons.2 ⟨h.1, ih h.2⟩

/-- The whole language. -/
def Fragment.whole : Fragment where
  names _ := True
  test _ := true
  values _ := True
  evaluated _ _ _ _ _ := trivial
  written _ _ := trivial
  scalar _ := trivial
  native _ := trivial
  body {s} _ := Stmt.allOf_true s.body
  defined _ := trivial

/-- Every machine is one of the whole language. -/
theorem Machine.carries_whole {κ : Type} (m : Machine κ) : m.Carries Fragment.whole.values :=
  ⟨fun _ _ _ _ => trivial, fun _ _ _ _ _ _ => trivial⟩

end Primer
