import Primer.Proofs.Counting
import Primer.Proofs.Footprint

/-!
# Constants are sealed for good

A table can be written in one way only: a name gets a value, unless it is a constant. So no run
takes a constant or its value from a table, nor leaves a name without a value that had one
(`Footprint.tables`). The four statements that write, an assignment, a definition and each pass of
a counting loop, all fail on a constant and leave the machine as they found it.
-/

set_option autoImplicit false

namespace Primer

/-! ## Tables -/

namespace Table

/-- The table holds the name as a constant with the value. -/
def Seals (t : Table) (name : String) (v : Value) : Prop :=
  t.slot? name = some ⟨name, some v, true⟩

/-- Constants stay constants with their values, and names that have a value keep one. -/
structure Kept (t t' : Table) : Prop where
  constants : ∀ name v, t.Seals name v → t'.Seals name v
  bound : ∀ name, t.contains name = true → t'.contains name = true

theorem Kept.refl (t : Table) : t.Kept t :=
  ⟨fun _ _ h => h, fun _ h => h⟩

theorem Kept.trans {t t' t'' : Table} (h : t.Kept t') (h' : t'.Kept t'') : t.Kept t'' :=
  ⟨fun name v hv => h'.constants name v (h.constants name v hv),
    fun name hv => h'.bound name (h.bound name hv)⟩

/-- After a slot was put, its name stands for it, and every other name for what it stood for. -/
theorem slot?_put (t : Table) (s : Slot) (name : String) :
    (t.put s).slot? name = if s.name = name then some s else t.slot? name := by
  obtain ⟨slots⟩ := t
  simp only [put, slot?]
  induction slots with
  | nil => by_cases hname : s.name = name <;> simp [putSlot, hname]
  | cons x xs ih =>
    simp only [putSlot]
    by_cases hx : x.name = s.name
    · rw [if_pos hx]
      by_cases hname : s.name = name <;> simp [hx, hname]
    · rw [if_neg hx, List.find?_cons, List.find?_cons, ih]
      by_cases hname : s.name = name
      · -- the slot in front has another name than the one that was put
        have hother : (x.name == name) = false := by simpa [← hname] using hx
        simp [hother, hname]
      · simp [hname]

/-- An assignment keeps every constant of the table. -/
theorem Kept.assign {t t' : Table} {name : String} {v : Value} {sealing : Bool} {pos : Position}
    (h : t.assign name v sealing pos = .ok t') : t.Kept t' := by
  obtain ⟨hopen, rfl⟩ := assign_eq_ok h
  constructor
  · intro x w hx
    unfold Seals at hx ⊢
    rw [slot?_put]
    by_cases hname : name = x
    · -- the name that was written is no constant
      subst hname
      simp [slot, hx] at hopen
    · rw [if_neg hname, hx]
  · intro x hx
    simp only [contains, lookup, slot?_put] at hx ⊢
    by_cases hname : name = x
    · simp [hname]
    · rw [if_neg hname]
      exact hx

/-- A constant refuses every write. -/
theorem Seals.assign {t : Table} {name : String} {w : Value} (h : t.Seals name w) (v : Value)
    (sealing : Bool) (pos : Position) :
    t.assign name v sealing pos = .error ⟨.reassigned name, pos⟩ := by
  unfold Seals at h
  simp [Table.assign, slot, h, Slot.set]

end Table

/-! ## Machines -/

namespace Machine

variable {κ : Type}

/-- The global table and the table of the active call keep their constants and their names. -/
structure Kept (m m' : Machine κ) : Prop where
  globals : m.globals.Kept m'.globals
  scope : Option.Rel Table.Kept m.scope m'.scope

/-- The table that a target is written to. -/
def written (m : Machine κ) (target : Target) : Table :=
  match m.scope, target.isGlobal with
  | some table, false => table
  | _, _ => m.globals

theorem kept_scope (scope : Option Table) : Option.Rel Table.Kept scope scope := by
  cases scope with
  | none => exact .none
  | some t => exact .some (Table.Kept.refl t)

theorem Kept.trans {m m' m'' : Machine κ} (h : m.Kept m') (h' : m'.Kept m'') : m.Kept m'' := by
  refine ⟨h.globals.trans h'.globals, ?_⟩
  obtain ⟨-, hscope⟩ := h
  obtain ⟨-, hscope'⟩ := h'
  generalize m.scope = s, m'.scope = s', m''.scope = s'' at hscope hscope' ⊢
  cases hscope with
  | none => exact hscope'
  | some ht =>
    cases hscope' with
    | some ht' => exact .some (ht.trans ht')

/-- An assignment keeps the constants of both tables. -/
theorem Kept.assign {target : Target} {v : Value} {pos : Position} {m m' : Machine κ}
    (h : Machine.assign target v pos m = .done () m') : m.Kept m' := by
  rcases assign_cases h with ⟨t, t', ht, -, hassign, rfl⟩ | ⟨t', -, hassign, rfl⟩
  · refine ⟨Table.Kept.refl _, ?_⟩
    rw [ht]
    exact .some (Table.Kept.assign hassign)
  · exact ⟨Table.Kept.assign hassign, kept_scope _⟩

/-- What a target is refused for, it is refused for later on. -/
theorem Kept.written {m m' : Machine κ} (h : m.Kept m') (target : Target) :
    (m.written target).Kept (m'.written target) := by
  obtain ⟨hglobals, hscope⟩ := h
  unfold Machine.written
  generalize m.scope = s, m'.scope = s' at hscope ⊢
  cases hscope with
  | none => exact hglobals
  | some ht =>
    cases target.isGlobal with
    | true => exact hglobals
    | false => exact ht

/-- A write to a constant fails, and changes nothing. -/
theorem assign_of_seals {m : Machine κ} (target : Target) {w : Value}
    (h : (m.written target).Seals target.name w) (v : Value) (pos : Position) :
    Machine.assign target v pos m = .failed ⟨.reassigned target.name, pos⟩ m := by
  unfold Machine.written at h
  unfold Machine.assign
  split at h <;> simp [*, h.assign v target.sealing pos]

end Machine

/-- Expressions keep the global table, and do not touch the table of the active call; statements
keep both. -/
def Footprint.tables (κ : Type) : Footprint κ fun _ => true where
  exprs :=
    { Rel := fun m m' => m.globals.Kept m'.globals ∧ m'.scope = m.scope
      refl := fun m => ⟨Table.Kept.refl m.globals, rfl⟩
      trans := fun h h' => ⟨h.1.trans h'.1, h'.2.trans h.2⟩ }
  stmts :=
    { Rel := Machine.Kept
      refl := fun m => ⟨Table.Kept.refl m.globals, Machine.kept_scope m.scope⟩
      trans := Machine.Kept.trans }
  stmts_of_exprs {m _} h := ⟨h.1, h.2 ▸ Machine.kept_scope m.scope⟩
  console m _ := ⟨Table.Kept.refl m.globals, rfl⟩
  draws m _ := ⟨Table.Kept.refl m.globals, rfl⟩
  write _ _ h := Machine.Kept.assign h
  call _ h := ⟨h.globals, rfl⟩

namespace Eval

variable {κ : Type} [Console κ]

/-! ## Writes to constants -/

section Refusals

variable {n : Nat} {m m' : Machine κ} {w : Value} {pos : Position}

theorem kept_required {e : Expr} {v : Value} (h : required e (expr n e) m = .done v m') :
    m.Kept m' := by
  have hwithin := within_required (e := e) (((Footprint.tables κ).evaluates_and_runs n).1 e) m
    m.meets_true
  exact (Footprint.tables κ).stmts_of_exprs (hwithin.machine (by rw [h]; rfl)).2

/-- An assignment to a constant fails, after its value was evaluated. -/
theorem stmt_assign_of_seals {target : Target} {e : Expr}
    (h : (m.written target).Seals target.name w) :
    stmt (n + 1) (.assign target e pos) m =
      (required e (expr n e) >>= fun _ => Exec.fail ⟨.reassigned target.name, pos⟩) m := by
  simp only [stmt, bind]
  cases hvalue : required e (expr n e) m with
  | failed fault m' => rfl
  | panicked least most console => rfl
  | outOfFuel => rfl
  | done v m' =>
    -- the constant is still one after the value was computed
    have hseals := ((kept_required hvalue).written target).constants _ w h
    simp only [Machine.assign_of_seals target hseals v pos, Exec.fail]

/-- A subroutine cannot take the name of a constant. -/
theorem stmt_define_of_seals {kind : SubroutineKind} {name : String} {params : List String}
    {body : List Stmt} (h : (m.written (Target.plain name)).Seals name w) :
    stmt (n + 1) (.define kind name params body pos) m = .failed ⟨.reassigned name, pos⟩ m := by
  simp only [stmt, bind, Machine.assign_of_seals (Target.plain name) h _ pos]
  rfl

/-- A counting loop cannot count in a constant. -/
theorem countLoop_of_seals {counter : String} {body : List Stmt} {last step i : Int64}
    (k : Nat) (h : (m.written (Target.plain counter)).Seals counter w) :
    countLoop (pass n counter body pos) last step (k + 1) i m =
      .failed ⟨.reassigned counter, pos⟩ m := by
  simp only [countLoop, pass, bind, Machine.assign_of_seals (Target.plain counter) h _ pos]
  rfl

/-- The bounds of a loop are evaluated with every constant kept. -/
theorem kept_loopBounds {first last step : Expr} {bounds : Int64 × Int64 × Int64}
    (h : loopBounds n first last step m = .done bounds m') : m.Kept m' := by
  have heval := ((Footprint.tables κ).evaluates_and_runs n).1
  have hwithin : (loopBounds n first last step : Exec κ _).Within (fun _ => true)
      (Footprint.tables κ).exprs fun _ => True := by
    refine (within_bound _ (heval first)).bind fun a _ => ?_
    refine (within_bound _ (heval last)).bind fun b _ => ?_
    refine (within_bound _ (heval step)).bind fun s _ => ?_
    exact Exec.within_pure trivial
  exact (Footprint.tables κ).stmts_of_exprs ((hwithin m m.meets_true).machine (by rw [h]; rfl)).2

/-- A loop over a constant fails at its first pass, after its bounds were evaluated. -/
theorem stmt_forLoop_of_seals {counter : String} {first last step : Expr} {body : List Stmt}
    {a b s : Int64} (h : (m.written (Target.plain counter)).Seals counter w)
    (hbounds : loopBounds n first last step m = .done (a, b, s) m') (hstep : s.toInt ≠ 0)
    (hreachable : unreachable a b s = false) :
    stmt (n + 1) (.forLoop counter first last step body pos) m =
      .failed ⟨.reassigned counter, pos⟩ m' := by
  have hseals := ((kept_loopBounds hbounds).written (Target.plain counter)).constants _ w h
  cases n with
  | zero => cases hbounds
  | succ n =>
    rw [stmt_forLoop]
    simp only [bind, hbounds, hstep, hreachable, Bool.false_eq_true, if_false]
    exact countLoop_of_seals n hseals

end Refusals

/-- **Constants are sealed for good, and names never vanish.** Whatever is assigned, evaluated, run
or fed, and whether it succeeds or fails, a constant of the global table stays a constant with its
value, a global name that has a value keeps one, and the same holds for the table of the active
call. Every write of a constant is refused, with a fault about that name and without a change: by an
assignment of any qualifiers once its value is computed, by a definition, and by a counting loop
before its first pass and before every later one. -/
theorem constants_sealed :
    (∀ (target : Target) (v : Value) (pos : Position) (m m' : Machine κ),
      (Machine.assign target v pos m).machine? = some m' → m.Kept m') ∧
    (∀ (n : Nat) (s : Stmt) (m m' : Machine κ), (valueOf n s m).machine? = some m' →
      m.Kept m') ∧
    (∀ (n : Nat) (s : Stmt) (m m' : Machine κ), (stmt n s m).machine? = some m' → m.Kept m') ∧
    (∀ (n : Nat) (body : List Stmt) (m m' : Machine κ),
      (block (stmt n) body m).machine? = some m' → m.Kept m') ∧
    (∀ (n : Nat) (source : List String) (m m' : Machine κ),
      (lines n source m).machine? = some m' → m.Kept m') ∧
    (∀ (n : Nat) (s : Session κ) (line : String),
      s.machine.Kept (s.feed n line).2.machine) ∧
    (∀ (target : Target) (v w : Value) (pos : Position) (m : Machine κ),
      (m.written target).Seals target.name w →
      Machine.assign target v pos m = .failed ⟨.reassigned target.name, pos⟩ m) ∧
    (∀ (n : Nat) (target : Target) (e : Expr) (w : Value) (pos : Position) (m : Machine κ),
      (m.written target).Seals target.name w →
      stmt (n + 1) (.assign target e pos) m =
        (required e (expr n e) >>= fun _ => Exec.fail ⟨.reassigned target.name, pos⟩) m) ∧
    (∀ (n : Nat) (kind : SubroutineKind) (name : String) (params : List String)
      (body : List Stmt) (w : Value) (pos : Position) (m : Machine κ),
      (m.written (Target.plain name)).Seals name w →
      stmt (n + 1) (.define kind name params body pos) m = .failed ⟨.reassigned name, pos⟩ m) ∧
    (∀ (n : Nat) (counter : String) (first last step : Expr) (body : List Stmt) (a b s : Int64)
      (w : Value) (pos : Position) (m m' : Machine κ),
      (m.written (Target.plain counter)).Seals counter w →
      loopBounds n first last step m = .done (a, b, s) m' → s.toInt ≠ 0 →
      unreachable a b s = false →
      stmt (n + 1) (.forLoop counter first last step body pos) m =
        .failed ⟨.reassigned counter, pos⟩ m') ∧
    (∀ (n k : Nat) (counter : String) (body : List Stmt) (last step i : Int64) (w : Value)
      (pos : Position) (m : Machine κ),
      (m.written (Target.plain counter)).Seals counter w →
      countLoop (pass n counter body pos) last step (k + 1) i m =
        .failed ⟨.reassigned counter, pos⟩ m) ∧
    ∀ (name : String) (pos : Position),
      (Fault.diagnostic ⟨.reassigned name, pos⟩).family = .identifier name := by
  let F := Footprint.tables κ
  refine ⟨?_, ?_, ?_, ?_, ?_, ?_, ?_, ?_, ?_, ?_, ?_, ?_⟩
  · intro target v pos m m' hend
    rcases Machine.assign_ends target v pos m with ⟨m₁, hassign⟩ | ⟨fault, hassign⟩
    · rw [hassign] at hend
      obtain rfl := Option.some.inj hend
      exact Machine.Kept.assign hassign
    · rw [hassign] at hend
      obtain rfl := Option.some.inj hend
      exact F.stmts.refl m
  · -- every step is within the change of tables, which keeps constants
    intro n s m m' hend
    exact F.stmts_of_exprs ((F.within_valueOf n s m m.meets_true).machine hend).2
  · intro n s m m' hend
    exact (((F.evaluates_and_runs n).2 s (Stmt.all_true s) m m.meets_true).machine hend).2
  · intro n body m m' hend
    exact ((within_block (F.evaluates_and_runs n).2 (Stmt.allOf_true body) m
      m.meets_true).machine hend).2
  · intro n source m m' hend
    exact ((F.within_lines n source m m.meets_true).machine hend).2
  · intro n s line
    exact F.rel_feed n s line
  · -- what writes a constant is refused
    intro target v w pos m h
    exact Machine.assign_of_seals target h v pos
  · intro n target e w pos m h
    exact stmt_assign_of_seals h
  · intro n kind name params body w pos m h
    exact stmt_define_of_seals h
  · intro n counter first last step body a b s w pos m m' h hbounds hstep hreachable
    exact stmt_forLoop_of_seals h hbounds hstep hreachable
  · intro n k counter body last step i w pos m h
    exact countLoop_of_seals k h
  · intro name pos
    rfl

/-- A machine with the constant `c` keeps it through a program that counts with it, and refuses to
write it by an assignment, by a definition and as a counter. -/
theorem constants_sealed_counter :
    ∃ m m' : Machine Buffer, m.globals.Seals "c" (.integer 7) ∧
      (lines 20 ["for c = 1 to 3", "next c"] m).machine? = some m' ∧
      m'.globals.Seals "c" (.integer 7) ∧
      Machine.assign ⟨"c", true, true⟩ (.integer 2) ⟨0, 0⟩ m =
        .failed ⟨.reassigned "c", ⟨0, 0⟩⟩ m ∧
      stmt 5 (.define .procedure "c" [] [] ⟨0, 0⟩) m = .failed ⟨.reassigned "c", ⟨0, 0⟩⟩ m ∧
      stmt 5 (.forLoop "c" (.literal (.integer 1) ⟨0, 8⟩) (.literal (.integer 3) ⟨0, 13⟩)
          (.literal (.integer 1) ⟨0, 0⟩) [] ⟨0, 0⟩) m =
        .failed ⟨.reassigned "c", ⟨0, 0⟩⟩ m := by
  obtain ⟨-, -, -, -, hlines, -, hassign, -, hdefine, hfor, -, -⟩ :=
    constants_sealed (κ := Buffer)
  have hends : (lines 20 ["for c = 1 to 3", "next c"]
      ⟨⟨[⟨"c", some (.integer 7), true⟩]⟩, none, 0, false, Buffer.withInput [] none,
        .lowest⟩).machine?.isSome = true := by decide +kernel
  obtain ⟨m', hm'⟩ := Option.isSome_iff_exists.1 hends
  refine ⟨_, m', ?_, hm', (hlines 20 _ _ m' hm').globals.constants "c" (.integer 7) rfl, ?_, ?_, ?_⟩
  · rfl
  · exact hassign ⟨"c", true, true⟩ (.integer 2) (.integer 7) ⟨0, 0⟩ _ rfl
  · exact hdefine 4 .procedure "c" [] [] (.integer 7) ⟨0, 0⟩ _ rfl
  · exact hfor 4 "c" _ _ _ [] 1 3 1 (.integer 7) ⟨0, 0⟩ _ _ rfl rfl (by decide) (by decide)

end Eval

end Primer
