import Primer.Proofs.Drawing
import Primer.Proofs.Means
import Primer.Proofs.Outcome

/-!
# Two runs side by side

A `Simulation` says which differences between two machines a run carries along: between their
global tables, their depths and their consoles. Everything else has to be equal. The first of two
runs may come to a stop that the second one gets past, at a line that only its console refuses or at
a call that only its depth forbids. From there on the second run goes on alone, and what the first
one left stays related to the console of the second (`Simulation.Past`).

`Simulation.Matches` relates two computations from machines side by side, and bounds what the second
one does when it is past the first. It admits the rules for computations in a row and holds of the
means of a run, so every two runs of the same statements match (`Simulation.means`).
-/

set_option autoImplicit false

namespace Primer

/-- How two consoles answer: alike, so that they stay side by side, or with a refusal of the first
that stops its run. -/
inductive Answered {κ κ' α : Type} (Shown : κ → κ' → Prop) (Stopped : Fault → κ → κ' → Prop) :
    Except String α × κ → Except String α × κ' → Prop
  | same {r : Except String α} {c : κ} {c' : κ'} (h : Shown c c') :
      Answered Shown Stopped (r, c) (r, c')
  | stopped {text : String} {r : Except String α} {c : κ} {c' : κ'}
      (h : ∀ pos, Stopped ⟨.console text, pos⟩ c c') :
      Answered Shown Stopped (.error text, c) (r, c')

/-- Differences between the machines of two runs of a fragment. `Stopped` relates the fault that
ended the first run, the console it left, and the console of the second run, which went on. -/
structure Simulation (L : Fragment) (κ κ' : Type) [Console κ] [Console κ'] where
  Globals : Table → Table → Prop
  Depth : Nat → Nat → Prop
  Shown : κ → κ' → Prop
  Stopped : Fault → κ → κ' → Prop
  found {t t' : Table} (h : Globals t t') {name : String} (hname : L.names name) :
    t.slot? name = t'.slot? name
  put {t t' : Table} (h : Globals t t') {s : Slot} (hname : L.names s.name) :
    Globals (t.put s) (t'.put s)
  enter {d d' : Nat} (h : Depth d d') : Depth (d + 1) (d' + 1)
  leave {d d' : Nat} (h : Depth d d') : Depth (d - 1) (d' - 1)
  limit {d d' : Nat} (h : Depth d d') {c : κ} {c' : κ'} (hc : Shown c c') (pos : Position) :
    (Eval.maxDepth ≤ d ↔ Eval.maxDepth ≤ d') ∨
      Eval.maxDepth ≤ d ∧ Stopped ⟨.callDepth Eval.maxDepth, pos⟩ c c'
  write {c : κ} {c' : κ'} (h : Shown c c') (s : String) :
    Answered Shown Stopped (Console.writeLine c s) (Console.writeLine c' s)
  read {c : κ} {c' : κ'} (h : Shown c c') (prompt : String) :
    Answered Shown Stopped (Console.readLine c prompt) (Console.readLine c' prompt)
  write_past {fault : Fault} {c : κ} {c' : κ'} (h : Stopped fault c c') (s : String) :
    Stopped fault c (Console.writeLine c' s).2
  read_past {fault : Fault} {c : κ} {c' : κ'} (h : Stopped fault c c') (prompt : String) :
    Stopped fault c (Console.readLine c' prompt).2

namespace Simulation

open Eval

variable {L : Fragment} {κ κ' : Type} [Console κ] [Console κ'] (S : Simulation L κ κ')

/-- Two runs that differ in their consoles only. -/
def ofConsoles (L : Fragment) (Shown : κ → κ' → Prop) (Stopped : Fault → κ → κ' → Prop)
    (write : ∀ {c c'}, Shown c c' → ∀ s,
      Answered Shown Stopped (Console.writeLine c s) (Console.writeLine c' s))
    (read : ∀ {c c'}, Shown c c' → ∀ prompt,
      Answered Shown Stopped (Console.readLine c prompt) (Console.readLine c' prompt))
    (write_past : ∀ {fault c c'}, Stopped fault c c' → ∀ s,
      Stopped fault c (Console.writeLine c' s).2)
    (read_past : ∀ {fault c c'}, Stopped fault c c' → ∀ prompt,
      Stopped fault c (Console.readLine c' prompt).2) : Simulation L κ κ' where
  Globals := Eq
  Depth := Eq
  Shown := Shown
  Stopped := Stopped
  found := by
    rintro t _ rfl name -
    rfl
  put := by
    rintro t _ rfl s -
    rfl
  enter h := by rw [h]
  leave h := by rw [h]
  limit h _ _ _ _ := Or.inl (by rw [h])
  write := write
  read := read
  write_past := write_past
  read_past := read_past

/-- Two runs with the same console, of which faults of a kind stop the first one only. -/
def ofFaults (L : Fragment) (κ : Type) [Console κ] (Stops : Fault → Prop) : Simulation L κ κ :=
  ofConsoles L Eq (fun fault _ _ => Stops fault)
    (by
      rintro c _ rfl s
      exact .same rfl)
    (by
      rintro c _ rfl prompt
      exact .same rfl)
    (fun h _ => h) (fun h _ => h)

/-- The simulation of a run by itself. -/
def same (L : Fragment) (κ : Type) [Console κ] : Simulation L κ κ := ofFaults L κ fun _ => False

/-- Two machines with no differences but those of the simulation; the second one holds values of
the fragment only. -/
structure Coupled (m : Machine κ) (m' : Machine κ') : Prop where
  globals : S.Globals m.globals m'.globals
  scope : m.scope = m'.scope
  depth : S.Depth m.depth m'.depth
  echo : m.echo = m'.echo
  console : S.Shown m.console m'.console
  draws : m.draws = m'.draws
  carries : m'.Carries L.values

/-- The first run stopped and left its machine, and the second run went on. -/
structure Past (fault : Fault) (m : Machine κ) (m' : Machine κ') : Prop where
  stopped : S.Stopped fault m.console m'.console
  carries : m'.Carries L.values

theorem coupled_self {κ : Type} [Console κ] {m : Machine κ} (h : m.Carries L.values) :
    (same L κ).Coupled m m :=
  ⟨rfl, rfl, rfl, rfl, rfl, rfl, h⟩

/-- How a second run that is past the first one goes on: in any way that keeps it past. -/
inductive Alone {α : Type} (A : α → Prop) (fault : Fault) (m : Machine κ) : Outcome κ' α → Prop
  | done {a : α} {m' : Machine κ'} (ha : A a) (h : S.Past fault m m') :
      Alone A fault m (.done a m')
  | failed {fault' : Fault} {m' : Machine κ'} (h : S.Past fault m m') :
      Alone A fault m (.failed fault' m')
  | panicked {least most : Float} {console : κ'} (h : S.Stopped fault m.console console) :
      Alone A fault m (.panicked least most console)
  | outOfFuel {m' : Machine κ'} (h : S.Past fault m m') : Alone A fault m .outOfFuel

/-- How two computations end: alike and with machines side by side, or the first with the fault that
stopped it. -/
inductive After {α : Type} (A : α → Prop) : Outcome κ α → Outcome κ' α → Prop
  | done {a : α} {m : Machine κ} {m' : Machine κ'} (ha : A a) (h : S.Coupled m m') :
      After A (.done a m) (.done a m')
  | failed {fault : Fault} {m : Machine κ} {m' : Machine κ'} (h : S.Coupled m m') :
      After A (.failed fault m) (.failed fault m')
  | panicked {least most : Float} {c : κ} {c' : κ'} (h : S.Shown c c') :
      After A (.panicked least most c) (.panicked least most c')
  | outOfFuel : After A .outOfFuel .outOfFuel
  | stopped {fault : Fault} {m : Machine κ} {o : Outcome κ' α} (h : S.Alone A fault m o) :
      After A (.failed fault m) o

/-- Two computations that match: from machines side by side, and the second also after the first
run has stopped. -/
structure Matches {α : Type} (A : α → Prop) (x : Exec κ α) (x' : Exec κ' α) : Prop where
  live {m : Machine κ} {m' : Machine κ'} (h : S.Coupled m m') : S.After A (x m) (x' m')
  past {fault : Fault} {m : Machine κ} {m' : Machine κ'} (h : S.Past fault m m') :
    S.Alone A fault m (x' m')

variable {S} {α β : Type} {A : α → Prop} {B : β → Prop}

/-! ## Computations in a row -/

theorem matches_pure {a : α} (ha : A a) : S.Matches A (pure a) (pure a) :=
  ⟨fun h => .done ha h, fun h => .done ha h⟩

theorem matches_exhausted : S.Matches A Exec.exhausted Exec.exhausted :=
  ⟨fun _ => .outOfFuel, fun h => .outOfFuel h⟩

theorem matches_fail (fault : Fault) : S.Matches A (Exec.fail fault) (Exec.fail fault) :=
  ⟨fun h => .failed h, fun h => .failed h⟩

/-- A second run that is past the first stays past it in the next computation. -/
theorem Alone.andThen {fault : Fault} {m : Machine κ} {o : Outcome κ' α} (h : S.Alone A fault m o)
    {f : α → Exec κ β} {f' : α → Exec κ' β} (hf : ∀ a, A a → S.Matches B (f a) (f' a)) :
    S.Alone B fault m (o.andThen f') := by
  cases h with
  | done ha h => exact (hf _ ha).past h
  | failed h => exact .failed h
  | panicked h => exact .panicked h
  | outOfFuel h => exact .outOfFuel h

/-- What two computations end in is where the next two begin. -/
theorem After.andThen {o : Outcome κ α} {o' : Outcome κ' α} (h : S.After A o o')
    {f : α → Exec κ β} {f' : α → Exec κ' β} (hf : ∀ a, A a → S.Matches B (f a) (f' a)) :
    S.After B (o.andThen f) (o'.andThen f') := by
  cases h with
  | done ha h => exact (hf _ ha).live h
  | failed h => exact .failed h
  | panicked h => exact .panicked h
  | outOfFuel => exact .outOfFuel
  | stopped h => exact .stopped (h.andThen hf)

/-- Computations that match do so in a row. -/
theorem Matches.bind {x : Exec κ α} {x' : Exec κ' α} (hx : S.Matches A x x')
    {f : α → Exec κ β} {f' : α → Exec κ' β} (hf : ∀ a, A a → S.Matches B (f a) (f' a)) :
    S.Matches B (x >>= f) (x' >>= f') :=
  ⟨fun h => (hx.live h).andThen hf, fun h => (hx.past h).andThen hf⟩

/-- What admits the rules for computations in a row. -/
def rules (S : Simulation L κ κ') : Rules κ κ' where
  Rel := S.Matches
  pure := matches_pure
  fail {_ _ fault} _ := matches_fail fault
  exhausted := matches_exhausted
  bind hx hf := Matches.bind hx hf

/-! ## Names and tables -/

/-- A name of the fragment means the same on both sides. -/
theorem Coupled.lookup {m : Machine κ} {m' : Machine κ'} (h : S.Coupled m m') {name : String}
    (hname : L.names name) (pos : Position) : m.lookup name pos = m'.lookup name pos := by
  simp only [Machine.lookup, Table.lookup, h.scope, S.found h.globals hname]

theorem matches_found {name : String} (hname : L.names name) (pos : Position) :
    S.Matches L.values (Machine.found name pos) (Machine.found name pos) := by
  have hvalue : ∀ {m' : Machine κ'}, m'.Carries L.values →
      Yields L.values (m'.lookup name pos) := fun hm _ hv => hm.lookup L.native hv
  have hmatches : ∀ {m' : Machine κ'}, m'.Carries L.values → S.Matches L.values
      (Exec.ofExcept (m'.lookup name pos)) (Exec.ofExcept (m'.lookup name pos)) :=
    fun hm => S.rules.ofExcept (hvalue hm) (Machine.clean_lookup _ name pos)
  constructor
  · intro m m' h
    simp only [Machine.found, h.lookup hname pos]
    exact (hmatches h.carries).live h
  · intro fault m m' h
    exact (hmatches h.carries).past h

/-- A machine that differs from the second one in its tables only is still past the first run. -/
theorem Past.of_console {fault : Fault} {m : Machine κ} {m' m'' : Machine κ'}
    (h : S.Past fault m m') (hconsole : m''.console = m'.console) (hm : m''.Carries L.values) :
    S.Past fault m m'' :=
  ⟨hconsole ▸ h.stopped, hm⟩

/-- Related tables take a write alike. -/
theorem assign_tables {t t' : Table} (h : S.Globals t t') {name : String} (hname : L.names name)
    (v : Value) (sealing : Bool) (pos : Position) :
    (∃ fault, t.assign name v sealing pos = .error fault ∧
      t'.assign name v sealing pos = .error fault) ∨
    ∃ u u', t.assign name v sealing pos = .ok u ∧ t'.assign name v sealing pos = .ok u' ∧
      S.Globals u u' := by
  have hslot : t.slot name = t'.slot name := by simp only [Table.slot, S.found h hname]
  simp only [Table.assign, Slot.set, hslot, Table.name_slot]
  cases (t'.slot name).isSealed with
  | true => exact Or.inl ⟨_, rfl, rfl⟩
  | false => exact Or.inr ⟨_, _, rfl, rfl, S.put h hname⟩

/-- In a call, both sides assign in the same table. -/
theorem Coupled.assign_scope {m : Machine κ} {m' : Machine κ'} (h : S.Coupled m m')
    {table : Table} (htable : table.Carries L.values) {name : String} {v : Value} (hv : L.values v)
    (sealing : Bool) (pos : Position) :
    S.After (fun _ => True)
      (match table.assign name v sealing pos with
      | .ok table' => .done () { m with scope := some table' }
      | .error fault => .failed fault m)
      (match table.assign name v sealing pos with
      | .ok table' => .done () { m' with scope := some table' }
      | .error fault => .failed fault m') := by
  cases hassign : table.assign name v sealing pos with
  | error fault => exact .failed h
  | ok table' =>
    refine .done trivial ⟨h.globals, rfl, h.depth, h.echo, h.console, h.draws, ?_⟩
    exact h.carries.enter (htable.assign hv hassign) m'.depth

/-- Outside of calls, both sides assign in global tables that differ as they may. -/
theorem Coupled.assign_globals {m : Machine κ} {m' : Machine κ'} (h : S.Coupled m m')
    {name : String} (hname : L.names name) {v : Value} (hv : L.values v) (sealing : Bool)
    (pos : Position) :
    S.After (fun _ => True)
      (match m.globals.assign name v sealing pos with
      | .ok t => .done () { m with globals := t }
      | .error fault => .failed fault m)
      (match m'.globals.assign name v sealing pos with
      | .ok t => .done () { m' with globals := t }
      | .error fault => .failed fault m') := by
  rcases assign_tables h.globals hname v sealing pos with
    ⟨fault, hfirst, hsecond⟩ | ⟨t, t', hfirst, hsecond, ht⟩
  · rw [hfirst, hsecond]
    exact .failed h
  · rw [hfirst, hsecond]
    refine .done trivial ⟨ht, h.scope, h.depth, h.echo, h.console, h.draws, ?_⟩
    exact ⟨h.carries.globals.assign hv hsecond, h.carries.scope⟩

/-- An assignment is refused on both sides or done on both. -/
theorem Coupled.assign {m : Machine κ} {m' : Machine κ'} (h : S.Coupled m m') {target : Target}
    (hname : L.names target.name) {v : Value} (hv : L.values v) (pos : Position) :
    S.After (fun _ => True) (Machine.assign target v pos m) (Machine.assign target v pos m') := by
  have hglobals := h.assign_globals hname hv target.sealing pos
  cases hscope : m'.scope with
  | none =>
    simp only [h.scope, hscope] at hglobals
    simp only [Machine.assign, h.scope, hscope]
    exact hglobals
  | some table =>
    cases hglobal : target.isGlobal with
    | true =>
      simp only [h.scope, hscope] at hglobals
      simp only [Machine.assign, h.scope, hscope, hglobal]
      exact hglobals
    | false =>
      simp only [Machine.assign, h.scope, hscope, hglobal]
      exact h.assign_scope (h.carries.scope table hscope) hv target.sealing pos

/-- Assignments match, since a run that is past the first one may assign too. -/
theorem matches_assign {target : Target} (hname : L.names target.name) {v : Value}
    (hv : L.values v) (pos : Position) :
    S.Matches (fun _ => True) (Machine.assign target v pos) (Machine.assign target v pos) := by
  refine ⟨fun h => h.assign hname hv pos, fun {fault m m'} h => ?_⟩
  rcases Machine.assign_ends target v pos m' with ⟨m'', hassign⟩ | ⟨f, hassign⟩
  · rw [hassign]
    refine .done trivial (h.of_console ?_ (h.carries.assign hv hassign))
    rcases Machine.assign_cases hassign with ⟨t, t', -, -, -, rfl⟩ | ⟨t', -, -, rfl⟩ <;> rfl
  · rw [hassign]
    exact .failed h

/-! ## Lines and draws -/

/-- What is said to both consoles matches if they answer so. -/
theorem matches_exchange {answer : κ → Except String α × κ} {answer' : κ' → Except String α × κ'}
    (hlive : ∀ {c c'}, S.Shown c c' → Answered S.Shown S.Stopped (answer c) (answer' c'))
    (hpast : ∀ {fault c c'}, S.Stopped fault c c' → S.Stopped fault c (answer' c').2)
    (pos : Position) :
    S.Matches (fun _ => True) (Machine.exchange answer pos) (Machine.exchange answer' pos) := by
  constructor
  · intro m m' h
    have hanswer := hlive h.console
    unfold Machine.exchange
    generalize answer m.console = given, answer' m'.console = given' at hanswer ⊢
    -- both consoles answer alike, or the first refuses and stops its run
    cases hanswer with
    | @same r c c' hc =>
      have hcoupled : S.Coupled { m with console := c } { m' with console := c' } :=
        ⟨h.globals, h.scope, h.depth, h.echo, hc, h.draws, ⟨h.carries.globals, h.carries.scope⟩⟩
      cases r with
      | ok a => exact .done trivial hcoupled
      | error text => exact .failed hcoupled
    | @stopped text r c c' hc =>
      have hstopped : S.Past ⟨.console text, pos⟩ { m with console := c }
          { m' with console := c' } := ⟨hc pos, ⟨h.carries.globals, h.carries.scope⟩⟩
      cases r with
      | ok a => exact .stopped (.done trivial hstopped)
      | error text' => exact .stopped (.failed hstopped)
  · intro fault m m' h
    have hanswer := hpast h.stopped
    unfold Machine.exchange
    generalize answer' m'.console = given' at hanswer ⊢
    obtain ⟨r, c'⟩ := given'
    have hstopped : S.Past fault m { m' with console := c' } :=
      ⟨hanswer, ⟨h.carries.globals, h.carries.scope⟩⟩
    cases r with
    | ok a => exact .done trivial hstopped
    | error text => exact .failed hstopped

theorem matches_writeLine (s : String) (pos : Position) :
    S.Matches (fun _ => True) (Machine.writeLine s pos) (Machine.writeLine s pos) := by
  rw [Machine.writeLine_eq, Machine.writeLine_eq]
  exact matches_exchange (fun h => S.write h s) (fun h => S.write_past h s) pos

theorem matches_readLine (prompt : String) (pos : Position) :
    S.Matches (fun _ => True) (Machine.readLine prompt pos) (Machine.readLine prompt pos) := by
  rw [Machine.readLine_eq, Machine.readLine_eq]
  exact matches_exchange (fun h => S.read h prompt) (fun h => S.read_past h prompt) pos

/-- Both generators are in the same state, so the same is drawn. -/
theorem matches_drawNumber (args : List Value) (pos : Position) :
    S.Matches Value.IsScalar (Native.drawNumber args pos) (Native.drawNumber args pos) := by
  have hfair := Native.yields_draw args pos
  constructor
  · intro m m' h
    unfold Native.drawNumber
    -- the generators are in one state, so the draws are one draw
    rw [h.draws]
    split
    · next v draws hdraw =>
      exact .done (hfair m'.draws _ hdraw) ⟨h.globals, h.scope, h.depth, h.echo, h.console, rfl,
        ⟨h.carries.globals, h.carries.scope⟩⟩
    · exact .panicked h.console
    · exact .failed h
  · intro fault m m' h
    unfold Native.drawNumber
    split
    · next v draws hdraw =>
      exact .done (hfair m'.draws _ hdraw)
        ⟨h.stopped, ⟨h.carries.globals, h.carries.scope⟩⟩
    · exact .panicked h.stopped
    · exact .failed h

/-! ## Calls -/

/-- A second run stays past the first when it leaves a call. -/
theorem Alone.leave {fault : Fault} {m₁ m₂ : Machine κ} {m' : Machine κ'} {o : Outcome κ' α}
    (h : S.Alone A fault m₁ o) (hm : m'.Carries L.values) (hconsole : m₂.console = m₁.console) :
    S.Alone A fault m₂ (o.leave m') := by
  have hpast : ∀ {m₁' : Machine κ'}, S.Past fault m₁ m₁' →
      S.Past fault m₂ { m₁' with scope := m'.scope, depth := m₁'.depth - 1 } := fun h₁ =>
    ⟨hconsole ▸ h₁.stopped, hm.leave h₁.carries _⟩
  cases h with
  | done ha h₁ => exact .done ha (hpast h₁)
  | failed h₁ => exact .failed (hpast h₁)
  | panicked h₁ => exact .panicked (hconsole ▸ h₁)
  | outOfFuel h₁ => exact .outOfFuel (hpast h₁)

theorem After.leave {m : Machine κ} {m' : Machine κ'} (h : S.Coupled m m') {o : Outcome κ α}
    {o' : Outcome κ' α} (ho : S.After A o o') : S.After A (o.leave m) (o'.leave m') := by
  have hcoupled : ∀ {m₁ : Machine κ} {m₁' : Machine κ'}, S.Coupled m₁ m₁' →
      S.Coupled { m₁ with scope := m.scope, depth := m₁.depth - 1 }
        { m₁' with scope := m'.scope, depth := m₁'.depth - 1 } := fun h₁ =>
    ⟨h₁.globals, h.scope, S.leave h₁.depth, h₁.echo, h₁.console, h₁.draws,
      h.carries.leave h₁.carries _⟩
  cases ho with
  | done ha h₁ => exact .done ha (hcoupled h₁)
  | failed h₁ => exact .failed (hcoupled h₁)
  | panicked h₁ => exact .panicked h₁
  | outOfFuel => exact .outOfFuel
  | stopped h₁ => exact .stopped (h₁.leave h.carries rfl)

/-- Calls match if their bodies do. -/
theorem matches_inCall {x : Exec κ α} {x' : Exec κ' α} (hx : S.Matches A x x') {table : Table}
    (htable : table.Carries L.values) :
    S.Matches A (Machine.inCall table x) (Machine.inCall table x') := by
  constructor
  · intro m m' h
    refine After.leave h (hx.live ?_)
    exact ⟨h.globals, rfl, S.enter h.depth, h.echo, h.console, h.draws, h.carries.enter htable _⟩
  · intro fault m m' h
    refine Alone.leave (hx.past ?_) h.carries rfl
    exact ⟨h.stopped, h.carries.enter htable _⟩

/-- Calls match at depths that differ, or the first run stops at its limit. -/
theorem matches_limited {x : Exec κ α} {x' : Exec κ' α} (hx : S.Matches A x x') (pos : Position) :
    S.Matches A (Machine.limited pos x) (Machine.limited pos x') := by
  have halone : ∀ {fault : Fault} {m : Machine κ} {m' : Machine κ'}, S.Past fault m m' →
      S.Alone A fault m (Machine.limited pos x' m') := by
    intro fault m m' h
    unfold Machine.limited
    split
    · exact .failed h
    · exact hx.past h
  refine ⟨fun {m m'} h => ?_, halone⟩
  -- the check of the depth comes out alike, or it stops the first run only
  rcases S.limit h.depth h.console pos with hsame | ⟨hdeep, hstopped⟩
  · simp only [Machine.limited, hsame]
    split
    · exact .failed h
    · exact hx.live h
  · have hfirst : Machine.limited pos x m = .failed ⟨.callDepth maxDepth, pos⟩ m := if_pos hdeep
    rw [hfirst]
    exact .stopped (halone ⟨hstopped, h.carries⟩)

/-- Echo is on for both sides or for neither. -/
theorem matches_ifEcho {x y : Exec κ α} {x' y' : Exec κ' α} (hx : S.Matches A x x')
    (hy : S.Matches A y y') : S.Matches A (Machine.ifEcho x y) (Machine.ifEcho x' y') := by
  constructor
  · intro m m' h
    simp only [Machine.ifEcho, h.echo]
    split
    · exact hx.live h
    · exact hy.live h
  · intro fault m m' h
    simp only [Machine.ifEcho]
    split
    · exact hx.past h
    · exact hy.past h

/-! ## Runs -/

/-- The means of a run keep two runs side by side. -/
def means (S : Simulation L κ κ') : Means L κ κ' where
  exprs := S.rules
  stmts := S.rules
  lift h := h
  found := matches_found
  assign hs htarget hv pos := matches_assign (L.written hs htarget) hv pos
  writeLine := matches_writeLine
  readLine := matches_readLine
  drawNumber := matches_drawNumber
  inCall hx _ htable pos := matches_limited (matches_inCall hx htable) pos
  ifEcho := matches_ifEcho

variable (S)

/-- **Expressions are evaluated side by side**, with any fuel. -/
theorem matches_expr (n : Nat) {e : Expr} (h : ∀ x ∈ e.names, L.names x) :
    S.Matches (Given L.values e) (expr n e) (expr n e) :=
  (S.means.evaluates_and_runs n).1 e h

/-- **Statements are run side by side**, with any fuel. -/
theorem matches_stmt (n : Nat) {s : Stmt} (h : s.all L.test = true) :
    S.Matches (fun flow => ∀ w ∈ flow.value, L.values w) (stmt n s) (stmt n s) :=
  (S.means.evaluates_and_runs n).2 s h

theorem matches_block (n : Nat) {body : List Stmt} (h : Stmt.allOf L.test body = true) :
    S.Matches (fun flow => ∀ w ∈ flow.value, L.values w) (block (stmt n) body)
      (block (stmt n) body) :=
  StmtMeans.block (S.means.evaluates_and_runs n).2 h

theorem matches_topLevels (n : Nat) {stmts : List Stmt} (h : Stmt.allOf L.test stmts = true) :
    S.Matches (fun _ => True) (topLevels n stmts) (topLevels n stmts) :=
  S.means.topLevels n h

/-- Sources of the fragment match. -/
theorem matches_lines (n : Nat) {source : List String}
    (h : ∀ p, Program.ofLines source = .ok p → Stmt.allOf L.test p.statements = true) :
    S.Matches (fun _ => True) (lines n source) (lines n source) := by
  unfold lines
  split
  · exact matches_fail _
  · next p hread =>
    refine (S.matches_topLevels n (h p hread)).bind fun _ _ => ?_
    cases p.fault with
    | none => exact matches_pure trivial
    | some fault => exact matches_fail fault

end Simulation

end Primer
