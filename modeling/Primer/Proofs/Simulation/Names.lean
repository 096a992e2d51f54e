import Primer.Proofs.Footprint.Sealing
import Primer.Proofs.Simulation

/-!
# Names that are not mentioned

What a global name is bound to does not matter to statements that never mention the name, as long as
no subroutine that they can come upon mentions it either. A run looks for a name only if a statement
mentions it, and writes only such names, so two global tables that differ in the binding of another
name answer alike and are written alike (`Simulation.besides`).
-/

set_option autoImplicit false

namespace Primer

variable {κ : Type} {z : String}

/-- Whether the statement does not mention a name itself: neither evaluates nor writes it. The
parameters of a subroutine need no test, as a call binds them in its own table. -/
def Stmt.avoids (z : String) (s : Stmt) : Bool :=
  (s.exprs.all fun e => !e.names.contains z) && s.target?.all fun target => target.name != z

/-- The statements and values that do not mention a name, wherever they are nested. -/
def Fragment.avoiding (z : String) : Fragment where
  names x := x ≠ z
  test := Stmt.avoids z
  values := Value.Meets (Stmt.avoids z)
  evaluated := by
    rintro s h e he x hx rfl
    simp only [Stmt.avoids, Bool.and_eq_true, List.all_eq_true] at h
    have hnot := h.1 e he
    simp [hx] at hnot
  written := by
    rintro s target h htarget
    simp only [Stmt.avoids, Bool.and_eq_true, htarget] at h
    simpa using h.2
  scalar h := h.meets
  native _ := trivial
  body h := h
  defined h := by
    simp only [Stmt.all, Bool.and_eq_true] at h
    exact h.2

namespace Table

/-- The table without the slot of a name. -/
def without (t : Table) (z : String) : Table := ⟨t.slots.filter fun s => s.name != z⟩

/-- What a table holds under other names is left. -/
theorem slot?_without (t : Table) {name : String} (h : name ≠ z) :
    (t.without z).slot? name = t.slot? name := by
  simp only [slot?, without, List.find?_filter]
  congr 1
  funext s
  by_cases hs : s.name = name
  · simp [hs, h]
  · simp [hs]

/-- To put a slot of another name and to drop the name may be done in either order. -/
theorem without_put (t : Table) {s : Slot} (h : s.name ≠ z) :
    (t.put s).without z = (t.without z).put s := by
  obtain ⟨slots⟩ := t
  simp only [put, without, mk.injEq]
  induction slots with
  | nil => simp [putSlot, h]
  | cons x xs ih =>
    by_cases hx : x.name = s.name
    · simp [putSlot, hx, h]
    · rw [putSlot, if_neg hx]
      by_cases hz : x.name = z
      · simp [hz, ih]
      · simp [hz, ih, putSlot, hx]

/-- A slot that is put under the name is dropped with it. -/
theorem without_put_self (t : Table) (s : Slot) : (t.put s).without s.name = t.without s.name := by
  obtain ⟨slots⟩ := t
  simp only [put, without, mk.injEq]
  induction slots with
  | nil => simp [putSlot]
  | cons x xs ih =>
    by_cases hx : x.name = s.name
    · simp [putSlot, hx]
    · simp [putSlot, hx, ih]

end Table

/-- Two runs with global tables that differ in the binding of a name only: `b` in the first and `b'`
in the second. -/
def Simulation.besides (κ : Type) [Console κ] (z : String) (b b' : Option Slot) :
    Simulation (Fragment.avoiding z) κ κ :=
  { same (Fragment.avoiding z) κ with
    Globals := fun t t' => t.without z = t'.without z ∧ t.slot? z = b ∧ t'.slot? z = b'
    found := by
      rintro t t' ⟨h, -, -⟩ name hname
      rw [← t.slot?_without hname, ← t'.slot?_without hname, h]
    put := by
      rintro t t' ⟨h, hb, hb'⟩ s hname
      refine ⟨?_, ?_, ?_⟩
      · rw [t.without_put hname, t'.without_put hname, h]
      · rw [Table.slot?_put, if_neg hname, hb]
      · rw [Table.slot?_put, if_neg hname, hb'] }

namespace Machine

/-- The machine without the global binding of a name. -/
def without (m : Machine κ) (z : String) : Machine κ :=
  { m with globals := m.globals.without z }

/-- The machine with a global binding of a name. -/
def bind (m : Machine κ) (z : String) (v : Value) (isSealed : Bool) : Machine κ :=
  { m with globals := m.globals.put ⟨z, some v, isSealed⟩ }

end Machine

/-- Two outcomes of the same kind, with the same value or fault and with related machines. -/
inductive Outcome.Alike {α : Type} (R : Machine κ → Machine κ → Prop) :
    Outcome κ α → Outcome κ α → Prop
  | done {a : α} {m m' : Machine κ} (h : R m m') : Alike R (.done a m) (.done a m')
  | failed {fault : Fault} {m m' : Machine κ} (h : R m m') :
      Alike R (.failed fault m) (.failed fault m')
  | panicked (least most : Float) (console : κ) :
      Alike R (.panicked least most console) (.panicked least most console)
  | outOfFuel : Alike R .outOfFuel .outOfFuel

namespace Eval

variable [Console κ]

/-- A machine that does not mention the name is beside itself with the name bound. -/
theorem coupled_bind {m : Machine κ} (hm : m.Meets (Stmt.avoids z)) (v : Value) (isSealed : Bool) :
    (Simulation.besides κ z (some ⟨z, some v, isSealed⟩) (m.globals.slot? z)).Coupled
      (m.bind z v isSealed) m := by
  refine ⟨⟨?_, ?_, rfl⟩, rfl, rfl, rfl, rfl, rfl, m.meets_iff_carries.1 hm⟩
  · exact m.globals.without_put_self _
  · exact (m.globals.slot?_put _ z).trans (if_pos rfl)

/-- Two machines side by side are the same without the name. -/
theorem without_eq_of_coupled {b b' : Option Slot} {m m' : Machine κ}
    (h : (Simulation.besides κ z b b').Coupled m m') : m.without z = m'.without z := by
  obtain ⟨globals, scope, depth, echo, console, draws⟩ := m
  obtain ⟨globals', scope', depth', echo', console', draws'⟩ := m'
  obtain ⟨⟨hglobals, -, -⟩, hscope, hdepth, hecho, hconsole, hdraws, -⟩ := h
  cases hscope
  cases hdepth
  cases hecho
  cases hconsole
  cases hdraws
  simp only [Machine.without] at hglobals ⊢
  rw [hglobals]

/-- Two runs side by side end alike, each with the binding that it began with. -/
theorem alike_of_after {α : Type} {A : α → Prop} {b b' : Option Slot} {o o' : Outcome κ α}
    (h : (Simulation.besides κ z b b').After A o o') :
    o.Alike (fun m m' => m.without z = m'.without z ∧ m.globals.slot? z = b ∧
      m'.globals.slot? z = b') o' := by
  cases h with
  | done _ h => exact .done ⟨without_eq_of_coupled h, h.globals.2⟩
  | failed h => exact .failed ⟨without_eq_of_coupled h, h.globals.2⟩
  | @panicked least most c c' hconsole =>
    obtain rfl : c = c' := hconsole
    exact .panicked least most c
  | outOfFuel => exact .outOfFuel
  | stopped h =>
    -- nothing stops one of the runs without stopping the other
    cases h with
    | done _ h => exact h.stopped.elim
    | failed h => exact h.stopped.elim
    | panicked hstopped => exact hstopped.elim
    | outOfFuel h => exact h.stopped.elim

/-- **A name that is not mentioned does not matter.** Let neither the statements nor the body of a
subroutine that the machine holds mention a name. Then they run with a global binding of the name,
to any value and constant or not, as they run without it: with the same result or fault, and to
machines that differ in the global binding of the name only, which is still what it was. This holds
outside of all blocks, where the values of statements are shown, and for a block wherever it
stands. -/
theorem unmentioned_irrelevant {m : Machine κ} (hm : m.Meets (Stmt.avoids z)) {stmts : List Stmt}
    (hstmts : Stmt.allOf (Stmt.avoids z) stmts = true) (v : Value) (isSealed : Bool) (n : Nat) :
    (topLevels n stmts (m.bind z v isSealed)).Alike
      (fun m₁ m₂ => m₁.without z = m₂.without z ∧
        m₁.globals.slot? z = some ⟨z, some v, isSealed⟩ ∧
        m₂.globals.slot? z = m.globals.slot? z)
      (topLevels n stmts m) ∧
    (block (stmt n) stmts (m.bind z v isSealed)).Alike
      (fun m₁ m₂ => m₁.without z = m₂.without z ∧
        m₁.globals.slot? z = some ⟨z, some v, isSealed⟩ ∧
        m₂.globals.slot? z = m.globals.slot? z)
      (block (stmt n) stmts m) := by
  have hcoupled := coupled_bind hm v isSealed
  constructor
  · exact alike_of_after ((Simulation.matches_topLevels _ n hstmts).live hcoupled)
  · exact alike_of_after ((Simulation.matches_block _ n hstmts).live hcoupled)

/-- A procedure prints a global name, and another global name is bound to a procedure that writes
the first one. As it is never called, both runs are done and print the same line. -/
theorem unmentioned_irrelevant_unused :
    let p : Subroutine := ⟨.procedure, "p", [],
      [.expr (.call (.name "print" ⟨1, 0⟩) [.name "x" ⟨1, 6⟩] ⟨1, 5⟩)]⟩
    let q : Subroutine := ⟨.procedure, "z", [],
      [.assign ⟨"x", false, true⟩ (.name "z" ⟨1, 11⟩) ⟨1, 0⟩]⟩
    let m : Machine Buffer := ⟨⟨[⟨"p", some (.callable (.user p)), false⟩]⟩, none, 0, true,
      Buffer.withInput [] none, .lowest⟩
    let stmts : List Stmt := [.assign (Target.plain "x") (.literal (.integer 1) ⟨0, 4⟩) ⟨0, 0⟩,
      .expr (.call (.name "p" ⟨1, 0⟩) [] ⟨1, 1⟩)]
    m.Meets (Stmt.avoids "z") ∧ Stmt.allOf (Stmt.avoids "z") stmts = true ∧
    (topLevels 9 stmts (m.bind "z" (.callable (.user q)) true)).Alike
      (fun m₁ m₂ => m₁.without "z" = m₂.without "z" ∧
        m₁.globals.slot? "z" = some ⟨"z", some (.callable (.user q)), true⟩ ∧
        m₂.globals.slot? "z" = m.globals.slot? "z")
      (topLevels 9 stmts m) ∧
    ((topLevels 9 stmts m).fault? = none ∧
      (topLevels 9 stmts m).machine?.map Machine.console = some ⟨#["1"], #[], [], none⟩) ∧
    ((topLevels 9 stmts (m.bind "z" (.callable (.user q)) true)).fault? = none ∧
      (topLevels 9 stmts (m.bind "z" (.callable (.user q)) true)).machine?.map Machine.console =
        some ⟨#["1"], #[], [], none⟩) := by
  intro p q m stmts
  have hm : m.Meets (Stmt.avoids "z") := by
    refine m.meets_iff_carries.2 ⟨fun slot hslot v hv => ?_, nofun⟩
    obtain rfl := List.mem_singleton.1 hslot
    obtain rfl := Option.some.inj hv
    show Stmt.allOf (Stmt.avoids "z") p.body = true
    decide
  have hstmts : Stmt.allOf (Stmt.avoids "z") stmts = true := by decide
  refine ⟨hm, hstmts, (unmentioned_irrelevant hm hstmts (.callable (.user q)) true 9).1, ?_, ?_⟩
  · decide +kernel
  · decide +kernel

end Eval

end Primer
