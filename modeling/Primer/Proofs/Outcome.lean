import Primer.Machine

/-!
# How computations end

What is left of a computation once it has ended: the fault, the machine, or the console alone. Of
two computations in a row, the second one is run on the machine that the first one leaves, and only
if that one is done.
-/

set_option autoImplicit false

namespace Primer

section Outcome

variable {κ α : Type}

/-- The fault of a computation that failed. -/
def Outcome.fault? : Outcome κ α → Option Fault
  | .failed fault _ => some fault
  | _ => none

theorem Outcome.fault?_eq_some {o : Outcome κ α} {fault : Fault}
    (h : o.fault? = some fault) : ∃ m, o = .failed fault m := by
  cases o with
  | failed fault' m =>
    obtain rfl : fault' = fault := Option.some.inj h
    exact ⟨m, rfl⟩
  | _ => cases h

/-- The machine that a computation left, unless it panicked or ran out of fuel. -/
def Outcome.machine? : Outcome κ α → Option (Machine κ)
  | .done _ m | .failed _ m => some m
  | .panicked _ _ _ | .outOfFuel => none

/-- The console that a computation left, unless it ran out of fuel. -/
def Outcome.console? : Outcome κ α → Option κ
  | .done _ m | .failed _ m => some m.console
  | .panicked _ _ console => some console
  | .outOfFuel => none

/-- A computation that left a machine left its console. -/
theorem Outcome.console?_of_machine? {o : Outcome κ α} {m : Machine κ}
    (h : o.machine? = some m) : o.console? = some m.console := by
  cases o with
  | done a m' => exact congrArg (Option.map Machine.console) h
  | failed fault m' => exact congrArg (Option.map Machine.console) h
  | panicked least most console => cases h
  | outOfFuel => cases h

/-- Goes on after a computation that has ended. -/
def Outcome.andThen {β : Type} (o : Outcome κ α) (f : α → Exec κ β) : Outcome κ β :=
  match o with
  | .done a m => f a m
  | .failed fault m => .failed fault m
  | .panicked least most console => .panicked least most console
  | .outOfFuel => .outOfFuel

/-- Gives the caller its table and its depth back. -/
def Outcome.leave (o : Outcome κ α) (caller : Machine κ) : Outcome κ α :=
  match o with
  | .done a m => .done a { m with scope := caller.scope, depth := m.depth - 1 }
  | .failed fault m => .failed fault { m with scope := caller.scope, depth := m.depth - 1 }
  | .panicked least most console => .panicked least most console
  | .outOfFuel => .outOfFuel

end Outcome

/-! ## The same machine on another console -/

section Consoles

variable {κ κ' κ'' α : Type}

/-- The machine with another console. -/
def Machine.on (m : Machine κ) (console : κ') : Machine κ' :=
  ⟨m.globals, m.scope, m.depth, m.echo, console, m.draws⟩

/-- The outcome with another view of its console. -/
def Outcome.mapConsole (o : Outcome κ α) (view : κ → κ') : Outcome κ' α :=
  match o with
  | .done a m => .done a (m.on (view m.console))
  | .failed fault m => .failed fault (m.on (view m.console))
  | .panicked least most console => .panicked least most (view console)
  | .outOfFuel => .outOfFuel

theorem Outcome.mapConsole_mapConsole (o : Outcome κ α) (view : κ → κ') (view' : κ' → κ'') :
    (o.mapConsole view).mapConsole view' = o.mapConsole fun c => view' (view c) := by
  cases o <;> rfl

/-- The outcome is the same if its console is. -/
theorem Outcome.mapConsole_eq_self {o : Outcome κ α} {c : κ} (h : o.console? = some c)
    {view : κ → κ} (hview : view c = c) : o.mapConsole view = o := by
  cases o with
  | done a m =>
    obtain rfl := Option.some.inj h
    exact congrArg (fun c => Outcome.done a (m.on c)) hview
  | failed fault m =>
    obtain rfl := Option.some.inj h
    exact congrArg (fun c => Outcome.failed fault (m.on c)) hview
  | panicked least most console =>
    obtain rfl := Option.some.inj h
    exact congrArg (Outcome.panicked least most) hview
  | outOfFuel => cases h

theorem Outcome.machine?_mapConsole (o : Outcome κ α) (view : κ → κ') :
    (o.mapConsole view).machine? = o.machine?.map fun m => m.on (view m.console) := by
  cases o <;> rfl

theorem Outcome.fault?_mapConsole (o : Outcome κ α) (view : κ → κ') :
    (o.mapConsole view).fault? = o.fault? := by
  cases o <;> rfl

theorem Outcome.console?_mapConsole (o : Outcome κ α) (view : κ → κ') :
    (o.mapConsole view).console? = o.console?.map view := by
  cases o <;> rfl

/-- A computation that is not done is the end of a row, on every console. -/
theorem Outcome.mapConsole_andThen {β : Type} {o : Outcome κ α} (h : ∀ a m, o ≠ .done a m)
    (view : κ → κ') (f : α → Exec κ' β) (g : α → Exec κ β) :
    (o.mapConsole view).andThen f = (o.andThen g).mapConsole view := by
  cases o with
  | done a m => exact absurd rfl (h a m)
  | _ => rfl

/-- A computation that is not done leaves its console to the end of the row. -/
theorem Outcome.console?_andThen {β : Type} {o : Outcome κ α} (h : ∀ a m, o ≠ .done a m)
    (g : α → Exec κ β) : (o.andThen g).console? = o.console? := by
  cases o with
  | done a m => exact absurd rfl (h a m)
  | _ => rfl

/-- To leave a call does not depend on the console. -/
theorem Outcome.mapConsole_leave (o : Outcome κ α) (view : κ → κ') (m : Machine κ) (c : κ') :
    (o.mapConsole view).leave (m.on c) = (o.leave m).mapConsole view := by
  cases o <;> rfl

theorem Outcome.console?_leave (o : Outcome κ α) (m : Machine κ) :
    (o.leave m).console? = o.console? := by
  cases o <;> rfl

end Consoles

/-! ## How two computations in a row end -/

namespace Exec

variable {κ α β : Type} {x : Exec κ α} {f : α → Exec κ β} {m m' : Machine κ}

/-- After a computation that is done, the next one starts from its machine. -/
theorem bind_of_done {a : α} (h : x m = .done a m') : (x >>= f) m = f a m' := by
  simp only [bind, h]

/-- After a computation that failed, nothing more is done. -/
theorem bind_of_failed {fault : Fault} (h : x m = .failed fault m') :
    (x >>= f) m = .failed fault m' := by
  simp only [bind, h]

/-- Two computations in a row are done with a result of the second one. -/
theorem bind_eq_done {b : β} (h : (x >>= f) m = .done b m') :
    ∃ a m₁, x m = .done a m₁ ∧ f a m₁ = .done b m' := by
  cases hx : x m with
  | done a m₁ => exact ⟨a, m₁, rfl, (bind_of_done hx).symm.trans h⟩
  | failed fault m₁ => cases (bind_of_failed hx).symm.trans h
  | panicked least most console =>
    simp only [bind, hx] at h
    cases h
  | outOfFuel =>
    simp only [bind, hx] at h
    cases h

/-- Two computations in a row fail with the first or with the second. -/
theorem bind_eq_failed {fault : Fault} (h : (x >>= f) m = .failed fault m') :
    x m = .failed fault m' ∨ ∃ a m₁, x m = .done a m₁ ∧ f a m₁ = .failed fault m' := by
  cases hx : x m with
  | done a m₁ => exact Or.inr ⟨a, m₁, rfl, (bind_of_done hx).symm.trans h⟩
  | failed fault' m₁ =>
    cases (bind_of_failed hx).symm.trans h
    exact Or.inl rfl
  | panicked least most console =>
    simp only [bind, hx] at h
    cases h
  | outOfFuel =>
    simp only [bind, hx] at h
    cases h

end Exec

end Primer
