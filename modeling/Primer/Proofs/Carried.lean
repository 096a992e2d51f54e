import Primer.Eval.Control

/-!
# What tables carry

Values reach a run through tables. If all values in the tables of a machine are of one sort, so is
every value that a name is looked up as, and writing a value of the sort keeps it so. A write
changes one table, and a call has a table that holds its arguments only.
-/

set_option autoImplicit false

namespace Primer

variable {V : Value → Prop}

/-- All values of the table are of the sort. -/
def Table.Carries (V : Value → Prop) (t : Table) : Prop :=
  ∀ slot ∈ t.slots, ∀ v, slot.value = some v → V v

namespace Table

theorem carries_empty : empty.Carries V := by
  intro slot hslot
  cases hslot

/-- A slot that is in a table after a put was put there or was in it before. -/
theorem mem_putSlot {s slot : Slot} {slots : List Slot} (h : slot ∈ putSlot s slots) :
    slot = s ∨ slot ∈ slots := by
  induction slots with
  | nil =>
    simp only [putSlot, List.mem_singleton] at h
    exact Or.inl h
  | cons x xs ih =>
    simp only [putSlot] at h
    split at h
    · rcases List.mem_cons.1 h with rfl | hmem
      · exact Or.inl rfl
      · exact Or.inr (List.mem_cons_of_mem x hmem)
    · rcases List.mem_cons.1 h with rfl | hmem
      · exact Or.inr List.mem_cons_self
      · rcases ih hmem with rfl | hrest
        · exact Or.inl rfl
        · exact Or.inr (List.mem_cons_of_mem x hrest)

theorem Carries.put {t : Table} (ht : t.Carries V) {s : Slot}
    (hs : ∀ v, s.value = some v → V v) : (t.put s).Carries V := by
  intro slot hslot
  rcases mem_putSlot hslot with rfl | hmem
  · exact hs
  · exact ht slot hmem

theorem Carries.lookup {t : Table} (ht : t.Carries V) {name : String} {v : Value}
    (h : t.lookup name = some v) : V v := by
  obtain ⟨slot, hslot, hvalue⟩ := Option.bind_eq_some_iff.1 h
  exact ht slot (List.mem_of_find?_eq_some hslot) v hvalue

theorem name_slot (t : Table) (name : String) : (t.slot name).name = name := by
  unfold slot
  cases h : t.slot? name with
  | none => rfl
  | some s =>
    have hfound := List.find?_some h
    simpa using hfound

/-- A write that succeeds finds a name that is no constant, and puts the value there. -/
theorem assign_eq_ok {t t' : Table} {name : String} {v : Value} {sealing : Bool} {pos : Position}
    (h : t.assign name v sealing pos = .ok t') :
    (t.slot name).isSealed = false ∧ t' = t.put ⟨name, some v, sealing⟩ := by
  simp only [assign, Slot.set, name_slot] at h
  cases hsealed : (t.slot name).isSealed with
  | true => simp [hsealed] at h
  | false =>
    simp only [hsealed, Bool.false_eq_true, if_false, Except.ok.injEq] at h
    exact ⟨rfl, h.symm⟩

/-- An assignment of such a value keeps the table so. -/
theorem Carries.assign {t t' : Table} (ht : t.Carries V) {name : String} {v : Value} (hv : V v)
    {sealing : Bool} {pos : Position} (h : t.assign name v sealing pos = .ok t') :
    t'.Carries V := by
  obtain ⟨-, rfl⟩ := assign_eq_ok h
  refine ht.put fun w hw => ?_
  obtain rfl : v = w := Option.some.inj hw
  exact hv

end Table

/-- The table of a call holds its arguments only. -/
theorem Eval.carries_bindParams (params : List String) {args : List Value}
    (hargs : ∀ v ∈ args, V v) : (bindParams params args).Carries V := by
  -- arguments are bound one after the other, to a table that grows
  suffices hfold : ∀ (params : List String) (args : List Value) (t : Table),
      (∀ v ∈ args, V v) → t.Carries V →
      ((params.zip args).foldl (fun t pv => t.put ⟨pv.1, some pv.2, false⟩) t).Carries V from
    hfold params args Table.empty hargs Table.carries_empty
  intro params
  induction params with
  | nil => exact fun _ _ _ ht => ht
  | cons param params ih =>
    intro args t hargs ht
    cases args with
    | nil => exact ht
    | cons v args =>
      apply ih args _ fun w hw => hargs w (List.mem_cons_of_mem v hw)
      refine ht.put fun w hw => ?_
      obtain rfl : v = w := Option.some.inj hw
      exact hargs v List.mem_cons_self

namespace Machine

variable {κ : Type}

/-- A write that succeeds changes one table: that of the active call, or the global one if no call
is active or the target is qualified so. -/
theorem assign_cases {m m' : Machine κ} {target : Target} {v : Value} {pos : Position}
    (h : Machine.assign target v pos m = .done () m') :
    (∃ t t', m.scope = some t ∧ target.isGlobal = false ∧
      t.assign target.name v target.sealing pos = .ok t' ∧ m' = { m with scope := some t' }) ∨
    ∃ t', (m.scope = none ∨ target.isGlobal = true) ∧
      m.globals.assign target.name v target.sealing pos = .ok t' ∧
      m' = { m with globals := t' } := by
  -- the table of the call is written if there is one and the name is not qualified
  unfold Machine.assign at h
  split at h
  · next t hscope hplain =>
    split at h
    · next t' hassign =>
      cases h
      exact Or.inl ⟨t, t', hscope, hplain, hassign, rfl⟩
    · cases h
  · next hother =>
    split at h
    · next t' hassign =>
      cases h
      refine Or.inr ⟨t', ?_, hassign, rfl⟩
      cases hscope : m.scope with
      | none => exact Or.inl rfl
      | some t =>
        cases hglobal : target.isGlobal with
        | true => exact Or.inr rfl
        | false => exact absurd hglobal (hother t hscope)
    · cases h

/-- A refused assignment leaves the machine as it is. -/
theorem assign_failed {m m' : Machine κ} {target : Target} {v : Value} {pos : Position}
    {fault : Fault} (h : Machine.assign target v pos m = .failed fault m') : m' = m := by
  unfold Machine.assign at h
  split at h
  · split at h
    · cases h
    · cases h
      rfl
  · split at h
    · cases h
    · cases h
      rfl

/-- A write succeeds, or fails and changes nothing. -/
theorem assign_ends (target : Target) (v : Value) (pos : Position) (m : Machine κ) :
    (∃ m', Machine.assign target v pos m = .done () m') ∨
      ∃ fault, Machine.assign target v pos m = .failed fault m := by
  unfold Machine.assign
  split
  · split
    · exact Or.inl ⟨_, rfl⟩
    · exact Or.inr ⟨_, rfl⟩
  · split
    · exact Or.inl ⟨_, rfl⟩
    · exact Or.inr ⟨_, rfl⟩

/-- All values in the tables of the machine are of the sort. -/
structure Carries (V : Value → Prop) (m : Machine κ) : Prop where
  globals : m.globals.Carries V
  scope : ∀ t, m.scope = some t → t.Carries V

/-- What a name means is such a value, given that provided subroutines are. -/
theorem Carries.lookup {m : Machine κ} (hm : m.Carries V)
    (hnative : ∀ n, V (.callable (.native n))) {name : String} {pos : Position} {v : Value}
    (h : m.lookup name pos = .ok v) : V v := by
  unfold Machine.lookup at h
  -- a name is looked for in the active call, then among the global names, then the provided ones
  split at h
  · next w hw =>
    obtain ⟨t, ht, hlookup⟩ := Option.bind_eq_some_iff.1 hw
    obtain rfl := Except.ok.inj h
    exact (hm.scope t ht).lookup hlookup
  · split at h
    · next w hw =>
      obtain rfl := Except.ok.inj h
      exact hm.globals.lookup hw
    · split at h
      · obtain rfl := Except.ok.inj h
        exact hnative _
      · cases h

/-- A machine stays so when a call is entered. -/
theorem Carries.enter {m : Machine κ} (hm : m.Carries V) {table : Table} (ht : table.Carries V)
    (depth : Nat) : Machine.Carries V { m with scope := some table, depth := depth } := by
  refine ⟨hm.globals, fun t htable => ?_⟩
  obtain rfl := Option.some.inj htable
  exact ht

theorem Carries.leave {m m' : Machine κ} (hm : m.Carries V) (hm' : m'.Carries V) (depth : Nat) :
    Machine.Carries V { m' with scope := m.scope, depth := depth } :=
  ⟨hm'.globals, hm.scope⟩

theorem Carries.assign {m m' : Machine κ} (hm : m.Carries V) {target : Target} {v : Value}
    (hv : V v) {pos : Position} (h : Machine.assign target v pos m = .done () m') :
    m'.Carries V := by
  rcases assign_cases h with ⟨t, t', ht, -, hassign, rfl⟩ | ⟨t', -, hassign, rfl⟩
  · refine ⟨hm.globals, fun u hu => ?_⟩
    obtain rfl := Option.some.inj hu
    exact (hm.scope t ht).assign hv hassign
  · exact ⟨hm.globals.assign hv hassign, hm.scope⟩

end Machine

end Primer
