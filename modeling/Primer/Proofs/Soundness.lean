import Primer.Proofs.Footprint
import Primer.Proofs.Pointing.Session
import Primer.Proofs.Simulation
import Primer.Proofs.Soundness.Faults
import Primer.Proofs.Soundness.Flow
import Primer.Proofs.WellFormed.Parser

/-!
# What is parsed is run without slips

The parser refuses a `return` outside of a subroutine, and one with a value inside a procedure. The
evaluator relies on both, without a check of its own. What connects the two is that the bodies which
a machine holds are as the parser let them through (`Machine.Sound`): that is so at the start, and
every statement, expression and call keeps it, since the only bodies that reach a table are those of
definitions that were parsed. So a parsed statement never returns out of the program, a procedure
never yields a value, and using the value of its call fails at the call (`Eval.parsed_sound`).
-/

set_option autoImplicit false

namespace Primer

variable {κ : Type}

/-! ## The fragment of parsed programs -/

/-- Whether the body of a definition can stand in a subroutine of its kind. -/
def Stmt.definesWellFormed : Stmt → Bool
  | .define kind _ _ body _ => Stmt.wellFormedAll (some kind) body
  | _ => true

mutual

/-- In a well-formed statement, every definition is well-formed. -/
theorem Stmt.all_of_wellFormed : ∀ {inside : Option SubroutineKind} {s : Stmt},
    s.wellFormed inside = true → s.all Stmt.definesWellFormed = true
  | _, .expr _, _ | _, .assign _ _ _, _ | _, .ret _ _, _ => rfl
  | _, .define _ _ _ body _, h => by
    simp only [Stmt.wellFormed, Bool.and_eq_true] at h
    simp only [Stmt.all, Stmt.definesWellFormed, Bool.and_eq_true]
    exact ⟨h.2, Stmt.allOf_of_wellFormed h.2⟩
  | _, .branch _ body rest _, h => by
    simp only [Stmt.wellFormed, Bool.and_eq_true] at h
    simp only [Stmt.all, Stmt.definesWellFormed, Bool.and_eq_true]
    exact ⟨⟨trivial, Stmt.allOf_of_wellFormed h.1⟩, Arms.all_of_wellFormed h.2⟩
  | _, .whileLoop _ body _, h | _, .untilLoop body _ _, h | _, .forLoop _ _ _ _ body _, h => by
    simp only [Stmt.wellFormed] at h
    simp only [Stmt.all, Stmt.definesWellFormed, Bool.and_eq_true]
    exact ⟨trivial, Stmt.allOf_of_wellFormed h⟩

theorem Stmt.allOf_of_wellFormed : ∀ {inside : Option SubroutineKind} {body : List Stmt},
    Stmt.wellFormedAll inside body = true → Stmt.allOf Stmt.definesWellFormed body = true
  | _, [], _ => rfl
  | _, s :: rest, h => by
    simp only [Stmt.wellFormedAll, Bool.and_eq_true] at h
    simp only [Stmt.allOf, Bool.and_eq_true]
    exact ⟨Stmt.all_of_wellFormed h.1, Stmt.allOf_of_wellFormed h.2⟩

theorem Arms.all_of_wellFormed : ∀ {inside : Option SubroutineKind} {arms : Arms},
    arms.wellFormed inside = true → arms.all Stmt.definesWellFormed = true
  | _, .done, _ => rfl
  | _, .otherwise body, h => Stmt.allOf_of_wellFormed h
  | _, .elseif _ body rest, h => by
    simp only [Arms.wellFormed, Bool.and_eq_true] at h
    simp only [Arms.all, Bool.and_eq_true]
    exact ⟨Stmt.allOf_of_wellFormed h.1, Arms.all_of_wellFormed h.2⟩

end

/-- The body of the value can stand in a subroutine of its kind, if the value is a subroutine of the
program. -/
def Value.Sound : Value → Prop
  | .callable (.user s) => Stmt.wellFormedAll (some s.kind) s.body = true
  | _ => True

/-- The statements and values that come from parsed programs. -/
def Fragment.parsed : Fragment where
  names _ := True
  test := Stmt.definesWellFormed
  values := Value.Sound
  evaluated _ _ _ _ _ := trivial
  written _ _ := trivial
  scalar {v} h := by
    cases v with
    | callable c => exact absurd rfl h
    | _ => trivial
  native _ := trivial
  body h := Stmt.allOf_of_wellFormed h
  defined h := Stmt.self_of_all h

/-- Every subroutine that the machine holds has a body that can stand in a subroutine of its
kind. -/
def Machine.Sound (m : Machine κ) : Prop :=
  ∀ s, m.Holds s → Stmt.wellFormedAll (some s.kind) s.body = true

theorem Value.sound_of_ne {v : Value} (h : ∀ s, v ≠ .callable (.user s)) : v.Sound :=
  match v with
  | .callable (.user s) => absurd rfl (h s)
  | .callable (.native _) | .integer _ | .float _ | .boolean _ | .text _ => trivial

theorem Machine.sound_iff_carries (m : Machine κ) : m.Sound ↔ m.Carries Fragment.parsed.values :=
  (m.carries_iff_holds fun _ => Value.sound_of_ne).symm

/-! ## Soundness is kept -/

namespace Eval

variable [Console κ]

/-- What a computation that matches itself keeps of a sound machine. -/
structure KeepsSound {α : Type} (A : α → Prop) (o : Outcome κ α) : Prop where
  machine {m : Machine κ} (h : o.machine? = some m) : m.Sound
  value {a : α} {m : Machine κ} (h : o = .done a m) : A a

/-- What can be run beside itself keeps machines sound. -/
theorem keepsSound_of_matches {α : Type} {A : α → Prop} {x : Exec κ α}
    (hx : (Simulation.same Fragment.parsed κ).Matches A x x) {m : Machine κ} (hm : m.Sound) :
    KeepsSound A (x m) := by
  have hafter := hx.live (Simulation.coupled_self (m.sound_iff_carries.1 hm))
  generalize x m = o at hafter ⊢
  cases hafter with
  | done ha h =>
    refine ⟨fun hend => ?_, ?_⟩
    · obtain rfl := Option.some.inj hend
      exact (Machine.sound_iff_carries _).2 h.carries
    · rintro _ _ ⟨⟩
      exact ha
  | failed h =>
    refine ⟨fun hend => ?_, nofun⟩
    obtain rfl := Option.some.inj hend
    exact (Machine.sound_iff_carries _).2 h.carries
  | panicked h => exact ⟨nofun, nofun⟩
  | outOfFuel => exact ⟨nofun, nofun⟩
  | stopped h =>
    cases h with
    | failed h => exact h.stopped.elim

/-- Evaluation keeps machines sound, and its value is sound. -/
theorem keepsSound_expr (n : Nat) (e : Expr) {m : Machine κ} (hm : m.Sound) :
    KeepsSound (Given Value.Sound e) (expr n e m) :=
  keepsSound_of_matches (Simulation.matches_expr _ n fun _ _ => trivial) hm

theorem keepsSound_stmt (n : Nat) {inside : Option SubroutineKind} {s : Stmt}
    (hs : s.wellFormed inside = true) {m : Machine κ} (hm : m.Sound) :
    KeepsSound (fun flow => ∀ w ∈ flow.value, w.Sound) (stmt n s m) :=
  keepsSound_of_matches (Simulation.matches_stmt _ n (Stmt.all_of_wellFormed hs)) hm

theorem keepsSound_topLevels (n : Nat) {stmts : List Stmt}
    (hstmts : Stmt.wellFormedAll none stmts = true) {m : Machine κ} (hm : m.Sound) :
    KeepsSound (fun _ => True) (topLevels n stmts m) :=
  keepsSound_of_matches (Simulation.matches_topLevels _ n (Stmt.allOf_of_wellFormed hstmts)) hm

end Eval

/-! ## Reading -/

namespace Program

/-- Every statement that is read is well-formed. -/
theorem wellFormed_readFrom (bound n : Nat) :
    ∀ c : Cursor, Stmt.wellFormedAll none (readFrom bound n c).statements = true := by
  induction n with
  | zero => exact fun _ => rfl
  | succ n ih =>
    intro c
    have hgives := Stmt.gives_wellFormed bound c
    simp only [readFrom]
    split
    · rfl
    · next s c' hread =>
      simp only [Stmt.wellFormedAll, Bool.and_eq_true]
      exact ⟨hgives (some s) c' hread s rfl, ih c'⟩
    · rfl

theorem wellFormed_ofRows (rows : List Row) :
    Stmt.wellFormedAll none (ofRows rows).statements = true :=
  wellFormed_readFrom _ _ _

theorem wellFormed_ofLines {lines : List String} {p : Program} (h : ofLines lines = .ok p) :
    Stmt.wellFormedAll none p.statements = true := by
  cases hscan : Scanner.scan lines with
  | error fault => simp [ofLines, hscan, Except.map] at h
  | ok rows =>
    simp only [ofLines, hscan, Except.map, Except.ok.injEq] at h
    exact h ▸ wellFormed_ofRows rows

theorem wellFormed_statementsOf {lines : List String} {stmts : List Stmt}
    (h : statementsOf lines = .ok stmts) : Stmt.wellFormedAll none stmts = true := by
  obtain ⟨rows, -, hrows⟩ := statementsOf_ok h
  have hall := wellFormed_ofRows rows
  rw [hrows] at hall
  exact hall

end Program

/-- A parser hands out the statement, after any number of calls on some rows. -/
def Stmt.Parsed (s : Stmt) : Prop :=
  ∃ rows calls p, Parser.next (Parser.reached rows calls) = .ok (some s) p

theorem Stmt.Parsed.wellFormed {s : Stmt} (h : s.Parsed) : s.wellFormed none = true := by
  obtain ⟨rows, calls, p, hnext⟩ := h
  have hinside := Parser.inside_reached rows calls
  generalize Parser.reached rows calls = q at hnext hinside
  obtain ⟨c, inside⟩ := q
  obtain rfl : inside = none := hinside
  -- a parser without a mark reads what the readers read
  rw [Parser.next_eq, Parser.onRows] at hnext
  dsimp only at hnext
  split at hnext
  · next found c' hread =>
    obtain ⟨rfl, -⟩ := EStateM.Result.ok.inj hnext
    exact Stmt.gives_wellFormed _ c _ c' hread s rfl
  · cases hnext

/-! ## Machines that programs come to -/

/-- A machine that some runs and some lines of sessions come to, however they end. -/
inductive Machine.Reached [Console κ] : Machine κ → Prop
  | start (console : κ) (echo : Bool) (draws : Draws) : Reached (Machine.start console echo draws)
  | ran {m m' : Machine κ} (h : Reached m) (fuel : Nat) (source : List String)
      (hend : (Eval.lines fuel source m).machine? = some m') : Reached m'
  | fed {m : Machine κ} (h : Reached m) (fuel : Nat) (pending : List String) (line : String) :
      Reached (Session.feed fuel ⟨m, pending⟩ line).2.machine

/-- The first machine holds nothing that could be unsound. -/
theorem Machine.sound_start (console : κ) (echo : Bool) (draws : Draws) :
    (Machine.start console echo draws).Sound := by
  rintro s ⟨t, rfl | ht, slot, hslot, -⟩
  · cases hslot
  · cases ht

namespace Eval

variable [Console κ]

/-- A run of a source keeps machines sound. -/
theorem sound_lines (fuel : Nat) (source : List String) {m m' : Machine κ} (hm : m.Sound)
    (hend : (lines fuel source m).machine? = some m') : m'.Sound := by
  have hparsed : ∀ p, Program.ofLines source = .ok p →
      Stmt.allOf Stmt.definesWellFormed p.statements = true :=
    fun _ hread => Stmt.allOf_of_wellFormed (Program.wellFormed_ofLines hread)
  exact (keepsSound_of_matches (Simulation.matches_lines _ fuel hparsed) hm).machine hend

theorem sound_feed (fuel : Nat) (s : Session κ) (line : String) (hm : s.machine.Sound) :
    (s.feed fuel line).2.machine.Sound := by
  fun_cases Session.feed fuel s line with
  | case4 _ entry stmts hread _ m hrun | case5 _ entry stmts hread fault m hrun =>
    have hkeeps := keepsSound_topLevels fuel (Program.wellFormed_statementsOf hread) hm
    rw [hrun] at hkeeps
    exact hkeeps.machine rfl
  | _ => exact hm

end Eval

/-- Every machine between two sources is sound. -/
theorem Machine.Reached.sound [Console κ] {m : Machine κ} (h : m.Reached) : m.Sound := by
  induction h with
  | start console echo draws => exact Machine.sound_start console echo draws
  | ran _ fuel source hend ih => exact Eval.sound_lines fuel source ih hend
  | @fed m _ fuel pending line ih => exact Eval.sound_feed fuel ⟨m, pending⟩ line ih

/-- A machine at which a parsed program may evaluate an expression or run a statement, however deep
in calls and loops. -/
inductive Machine.Visited [Console κ] : Machine κ → Prop
  | reached {m : Machine κ} (h : m.Reached) : Visited m
  | evaluated {m m' : Machine κ} (h : Visited m) {n : Nat} {e : Expr}
      (hend : (Eval.expr n e m).machine? = some m') : Visited m'
  | run {m m' : Machine κ} (h : Visited m) {n : Nat} {inside : Option SubroutineKind} {s : Stmt}
      (hs : s.wellFormed inside = true) (hend : (Eval.stmt n s m).machine? = some m') : Visited m'
  | counted {m m' : Machine κ} (h : Visited m) {counter : String} {i : Int64} {pos : Position}
      (hend : Machine.assign (Target.plain counter) (.integer i) pos m = .done () m') : Visited m'
  | entered {m m₁ m₂ : Machine κ} (h : Visited m) {n : Nat} {callee : Expr} {arguments : List Expr}
      {s : Subroutine} {args : List Value}
      (hcallee : Eval.required callee (Eval.expr n callee) m = .done (.callable (.user s)) m₁)
      (hargs : Eval.each (Eval.expr n) arguments m₁ = .done args m₂) :
      Visited { m₂ with scope := some (Eval.bindParams s.params args), depth := m₂.depth + 1 }

namespace Eval

variable [Console κ]

/-- A value that is required is sound. -/
theorem keepsSound_required (n : Nat) (e : Expr) {m : Machine κ} (hm : m.Sound) :
    KeepsSound Value.Sound (required e (expr n e) m) := by
  refine keepsSound_of_matches ((Simulation.same Fragment.parsed κ).rules.required ?_) hm
  exact Simulation.matches_expr _ n fun _ _ => trivial

theorem keepsSound_each (n : Nat) (es : List Expr) {m : Machine κ} (hm : m.Sound) :
    KeepsSound (fun vs => ∀ v ∈ vs, v.Sound) (each (expr n) es m) := by
  refine keepsSound_of_matches ((Simulation.same Fragment.parsed κ).rules.each fun e _ => ?_) hm
  exact Simulation.matches_expr _ n fun _ _ => trivial

end Eval

/-- Every machine that a run goes through is sound. -/
theorem Machine.Visited.sound [Console κ] {m : Machine κ} (h : m.Visited) : m.Sound := by
  induction h with
  | reached h => exact h.sound
  | evaluated _ hend ih => exact (Eval.keepsSound_expr _ _ ih).machine hend
  | run _ hs hend ih => exact (Eval.keepsSound_stmt _ hs ih).machine hend
  | counted _ hend ih =>
    rw [Machine.sound_iff_carries] at ih ⊢
    exact ih.assign (Fragment.parsed.scalar (by simp [Value.IsScalar, Value.kind])) hend
  | @entered m m₁ m₂ _ n callee arguments s args hcallee hargs ih =>
    have hm₁ : m₁.Sound := (Eval.keepsSound_required n callee ih).machine (by rw [hcallee]; rfl)
    have hkeeps := Eval.keepsSound_each n arguments hm₁
    have hm₂ : m₂.Sound := hkeeps.machine (by rw [hargs]; rfl)
    rw [Machine.sound_iff_carries] at hm₂ ⊢
    exact hm₂.enter (Eval.carries_bindParams s.params (hkeeps.value hargs)) _

/-! ## Values that procedures do not yield -/

namespace Eval

variable [Console κ]

/-- Whatever asks the expression for a value on the first machine, in place of an operand, an
argument, a condition or what is assigned or returned, fails with the fault and the second
machine. -/
structure UseFails (n : Nat) (c : Expr) (m m' : Machine κ) (fault : Fault) : Prop where
  unary (op : UnaryOp) (pos : Position) : expr (n + 1) (.unary op c pos) m = .failed fault m'
  left (op : BinaryOp) (r : Expr) (pos : Position) :
    expr (n + 1) (.binary op c r pos) m = .failed fault m'
  right (op : BinaryOp) (l : Expr) (pos : Position) {m₀ : Machine κ} {a : Value}
    (h : required l (expr n l) m₀ = .done a m) :
    expr (n + 1) (.binary op l c pos) m₀ = .failed fault m'
  argument (callee : Expr) (before after : List Expr) (pos : Position) {m₀ m₁ : Machine κ}
    {f : Callable} {vs : List Value}
    (hcallee : required callee (expr n callee) m₀ = .done (.callable f) m₁)
    (hbefore : each (expr n) before m₁ = .done vs m) :
    expr (n + 1) (.call callee (before ++ c :: after) pos) m₀ = .failed fault m'
  branch (body : List Stmt) (rest : Arms) (pos : Position) :
    stmt (n + 1) (.branch c body rest pos) m = .failed fault m'
  arm (body : List Stmt) (rest : Arms) :
    arms (expr n) (stmt n) (.elseif c body rest) m = .failed fault m'
  whilePass (body : Exec κ Flow) (k : Nat) :
    whileLoop (condition "'while' condition" c (expr n c)) body (k + 1) m = .failed fault m'
  untilPass (body : Exec κ Flow) (k : Nat) {m₀ : Machine κ} {v : Option Value}
    (h : body m₀ = .done (.next v) m) :
    untilLoop body (condition "'until' condition" c (expr n c)) (k + 1) m₀ = .failed fault m'
  assigned (target : Target) (pos : Position) :
    stmt (n + 1) (.assign target c pos) m = .failed fault m'
  returned (pos : Position) : stmt (n + 1) (.ret (some c) pos) m = .failed fault m'

omit [Console κ] in
/-- If one argument fails, so do all, with its fault. -/
theorem each_of_failed {eval : Expr → Exec κ (Option Value)} {c : Expr} {m m' : Machine κ}
    {fault : Fault} (h : required c (eval c) m = .failed fault m') (after : List Expr) :
    ∀ {before : List Expr} {m₁ : Machine κ} {vs : List Value},
      each eval before m₁ = .done vs m →
      each eval (before ++ c :: after) m₁ = .failed fault m'
  | [], m₁, _, hbefore => by
    cases hbefore
    exact Exec.bind_of_failed h
  | e :: before, m₁, _, hbefore => by
    obtain ⟨v, m₂, hfirst, hrest⟩ := Exec.bind_eq_done hbefore
    obtain ⟨vs, m₃, hrest, hpure⟩ := Exec.bind_eq_done hrest
    cases hpure
    exact (Exec.bind_of_done hfirst).trans (Exec.bind_of_failed (each_of_failed h after hrest))

/-- Where a value is required and fails, its use fails with the same fault. -/
theorem useFails_of_required {n : Nat} {c : Expr} {m m' : Machine κ} {fault : Fault}
    (h : required c (expr n c) m = .failed fault m') : UseFails n c m m' fault where
  unary _ _ := Exec.bind_of_failed h
  left _ _ _ := Exec.bind_of_failed h
  right _ _ _ _ _ hleft := (Exec.bind_of_done hleft).trans (Exec.bind_of_failed h)
  argument callee before after pos m₀ m₁ f vs hcallee hbefore := by
    refine (Exec.bind_of_done hcallee).trans ?_
    have harguments := each_of_failed h after hbefore
    cases f with
    | native native => exact Exec.bind_of_failed harguments
    | user s => exact Exec.bind_of_failed harguments
  branch _ _ _ := Exec.bind_of_failed (Exec.bind_of_failed h)
  arm _ _ := Exec.bind_of_failed (Exec.bind_of_failed h)
  whilePass _ _ := Exec.bind_of_failed (Exec.bind_of_failed h)
  untilPass _ _ _ _ hbody :=
    (Exec.bind_of_done hbody).trans (Exec.bind_of_failed (Exec.bind_of_failed h))
  assigned _ _ := Exec.bind_of_failed h
  returned _ := Exec.bind_of_failed h

/-- A call of a procedure that ends without a fault yields no value. -/
theorem call_procedure {m : Machine κ} (hm : m.Sound) {n : Nat} {callee : Expr}
    {arguments : List Expr} {pos : Position} {s : Subroutine} {m₁ : Machine κ}
    (hcallee : required callee (expr n callee) m = .done (.callable (.user s)) m₁)
    (hkind : s.kind = .procedure) {v : Option Value} {m' : Machine κ}
    (h : expr (n + 1) (.call callee arguments pos) m = .done v m') : v = none := by
  have hbody : Stmt.wellFormedAll (some s.kind) s.body = true :=
    (keepsSound_required n callee hm).value hcallee
  have hcall := (Exec.bind_of_done hcallee).symm.trans h
  obtain ⟨args, m₂, -, hcall⟩ := Exec.bind_eq_done hcall
  exact ends_callUser n hkind hbody args pos m₂ v m' hcall

/-- **Parsed programs do not reach the branches that the evaluator keeps for slips of its own.** A
parsed statement, run on a machine that runs and sessions came to, never returns out of the program.
Nothing that is evaluated or run, at any depth, fails because a statement is asked for a value, or
because an expression that is no call has none. And wherever a program calls a procedure that it
defined, and the call ends without a fault, there is no value; so the fault of the call, which is
one of evaluation, is what comes of using it as an operand, an argument, a condition or a value to
assign. -/
theorem parsed_sound :
    (∀ m : Machine κ, m.Reached → ∀ s : Stmt, s.Parsed → ∀ n,
      (∀ v m', stmt n s m ≠ .done (.returned v) m') ∧
      ∀ fault m', stmt n s m = .failed fault m' ∨ topLevel n s m = .failed fault m' →
        fault.cause ≠ .noValue ∧ fault.cause ≠ .statementAsValue) ∧
    ∀ m : Machine κ, m.Visited →
      (∀ n e fault m', expr n e m = .failed fault m' →
        fault.cause ≠ .noValue ∧ fault.cause ≠ .statementAsValue) ∧
      (∀ n s fault m', stmt n s m = .failed fault m' →
        fault.cause ≠ .noValue ∧ fault.cause ≠ .statementAsValue) ∧
      ∀ (n : Nat) (callee : Expr) (arguments : List Expr) (pos : Position) (s : Subroutine)
        (m₁ : Machine κ),
        required callee (expr n callee) m = .done (.callable (.user s)) m₁ →
        s.kind = .procedure →
        ∀ v m', expr (n + 1) (.call callee arguments pos) m = .done v m' →
          v = none ∧ ∃ fault, fault.diagnostic.family = .evaluation ∧ fault.position = pos ∧
            UseFails (n + 1) (.call callee arguments pos) m m' fault := by
  -- the two faults are slips of the evaluator, which no proper computation makes
  have hcause : ∀ {fault : Fault}, fault.cause.isInternal = false →
      fault.cause ≠ .noValue ∧ fault.cause ≠ .statementAsValue := by
    intro fault h
    constructor <;>
    · intro hcause
      rw [hcause] at h
      cases h
  constructor
  · intro m _ s hs n
    constructor
    · -- outside of a subroutine no return can end a statement
      intro v m' hreturned
      exact (ends_stmt n s hs.wellFormed m _ m' hreturned v rfl).1 rfl
    · rintro fault m' (hfailed | hfailed)
      · exact hcause ((proper_stmt n s m).fault hfailed)
      · exact hcause ((proper_topLevel n s m).fault hfailed)
  · intro m hm
    refine ⟨?_, ?_, ?_⟩
    · exact fun n e fault m' hfailed => hcause ((proper_expr n e m).fault hfailed)
    · exact fun n s fault m' hfailed => hcause ((proper_stmt n s m).fault hfailed)
    · intro n callee arguments pos s m₁ hcallee hkind v m' hcall
      obtain rfl := call_procedure hm.sound hcallee hkind hcall
      refine ⟨rfl, ⟨missingValue (.call callee arguments pos), pos⟩, ?_, rfl, ?_⟩
      · cases callee <;> rfl
      · exact useFails_of_required (Exec.bind_of_done hcall)

/-- A call of a procedure is parsed as a statement, and runs without a value; assigning it fails at
the call. -/
theorem parsed_sound_procedure :
    let start : Machine Buffer := Machine.start (Buffer.withInput [] none) false .lowest
    let m : Machine Buffer := { start with
      globals := Table.empty.put ⟨"p", some (.callable (.user ⟨.procedure, "p", [], []⟩)), false⟩ }
    let c : Expr := .call (.name "p" ⟨2, 4⟩) [] ⟨2, 5⟩
    (∃ s : Stmt, s.Parsed ∧ ∀ v m', stmt 9 s start ≠ .done (.returned v) m') ∧
    ∃ fault, fault.diagnostic.family = .evaluation ∧ fault.position = ⟨2, 5⟩ ∧
      stmt 5 (.assign (Target.plain "x") c ⟨2, 0⟩) m = .failed fault m := by
  intro start m c
  have hstart : start.Reached := .start _ _ _
  constructor
  · let rows : List Row := List.map (List.map (⟨·, Position.start⟩))
      [[.name "p", .mark .openParen, .mark .closeParen]]
    have hparsed : Stmt.Parsed (.expr (.call (.name "p" Position.start) [] Position.start)) :=
      ⟨rows, 0, _, rfl⟩
    exact ⟨_, hparsed, (parsed_sound.1 start hstart _ hparsed 9).1⟩
  · -- the machine is the one that the definition of the procedure leaves
    have hdefinition : (Stmt.define .procedure "p" [] [] ⟨0, 0⟩).wellFormed none = true := rfl
    have hm : m.Visited := (Machine.Visited.reached hstart).run (n := 1) hdefinition rfl
    obtain ⟨-, fault, hfamily, hposition, huse⟩ :=
      (parsed_sound.2 m hm).2.2 3 (.name "p" ⟨2, 4⟩) [] ⟨2, 5⟩ ⟨.procedure, "p", [], []⟩ m rfl rfl
        none m rfl
    exact ⟨fault, hfamily, hposition, huse.assigned (Target.plain "x") ⟨2, 0⟩⟩

end Eval

end Primer
