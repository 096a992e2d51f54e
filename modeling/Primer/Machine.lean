import Primer.Console
import Primer.Draws
import Primer.Table

/-!
# The state of a run

A `Machine` holds everything that statements can see or change. A computation over it finishes,
fails, panics, or runs out of the fuel that bounds its recursion. A failure keeps the state that it
left. A panic is no failure of the program: nothing goes on after it, and only what the console has
taken is left.
-/

set_option autoImplicit false

namespace Primer

/-- The state of a run: the global table, the table of the active call, the number of nested calls,
whether values of statements are shown, the console, and the generator of draws. -/
structure Machine (κ : Type) where
  globals : Table
  scope : Option Table
  depth : Nat
  echo : Bool
  console : κ
  draws : Draws

/-- The state before a program runs. -/
def Machine.start {κ : Type} (console : κ) (echo : Bool) (draws : Draws) : Machine κ :=
  ⟨Table.empty, none, 0, echo, console, draws⟩

/-- How a computation ends. It panics where a double is to be drawn from a range that is too wide
for the generator. -/
inductive Outcome (κ α : Type) where
  | done (value : α) (machine : Machine κ)
  | failed (fault : Fault) (machine : Machine κ)
  | panicked (least most : Float) (console : κ)
  | outOfFuel

/-- A computation over the state. -/
def Exec (κ α : Type) : Type := Machine κ → Outcome κ α

namespace Exec

variable {κ α β : Type}

@[always_inline]
instance : Monad (Exec κ) where
  pure a := fun m => .done a m
  bind x f := fun m =>
    match x m with
    | .done a m' => f a m'
    | .failed fault m' => .failed fault m'
    | .panicked least most console => .panicked least most console
    | .outOfFuel => .outOfFuel

/-- The computation that had no fuel. -/
@[inline]
def exhausted : Exec κ α := fun _ => .outOfFuel

/-- Fails with the given fault. -/
@[inline]
def fail (fault : Fault) : Exec κ α := fun m => .failed fault m

/-- A result that does not depend on the state. -/
@[inline]
def ofExcept (r : Except Fault α) : Exec κ α := fun m =>
  match r with
  | .ok a => .done a m
  | .error fault => .failed fault m

end Exec

namespace Machine

variable {κ : Type}

/-- The value of a name: of the active call, else global, else a provided subroutine. -/
def lookup (m : Machine κ) (name : String) (pos : Position) : Except Fault Value :=
  match m.scope.bind (·.lookup name) with
  | some v => .ok v
  | none =>
    match m.globals.lookup name with
    | some v => .ok v
    | none =>
      match Native.ofName? name with
      | some n => .ok (.callable (.native n))
      | none => .error ⟨.undeclared name, pos⟩

/-- Writes a name: in the table of the active call unless it is qualified as global or no call is
active. -/
def assign (target : Target) (v : Value) (pos : Position) : Exec κ Unit := fun m =>
  match m.scope, target.isGlobal with
  | some table, false =>
    match table.assign target.name v target.sealing pos with
    | .ok table' => .done () { m with scope := some table' }
    | .error fault => .failed fault m
  | _, _ =>
    match m.globals.assign target.name v target.sealing pos with
    | .ok table' => .done () { m with globals := table' }
    | .error fault => .failed fault m

/-- Shows a line on the console. -/
def writeLine [Console κ] (s : String) (pos : Position) : Exec κ Unit := fun m =>
  match m with
  | ⟨globals, scope, depth, echo, console, draws⟩ =>
    match Console.writeLine console s with
    | (.ok _, console') => .done () ⟨globals, scope, depth, echo, console', draws⟩
    | (.error text, console') =>
      .failed ⟨.console text, pos⟩ ⟨globals, scope, depth, echo, console', draws⟩

/-- Takes a line from the console. -/
def readLine [Console κ] (prompt : String) (pos : Position) : Exec κ String := fun m =>
  match m with
  | ⟨globals, scope, depth, echo, console, draws⟩ =>
    match Console.readLine console prompt with
    | (.ok s, console') => .done s ⟨globals, scope, depth, echo, console', draws⟩
    | (.error text, console') =>
      .failed ⟨.console text, pos⟩ ⟨globals, scope, depth, echo, console', draws⟩

/-- Runs a body in a call of its own: with a fresh table and one more nested call, both undone
whether the body is done or failed. -/
@[inline]
def inCall {α : Type} (table : Table) (body : Exec κ α) : Exec κ α := fun m =>
  match body { m with scope := some table, depth := m.depth + 1 } with
  | .done a m' => .done a { m' with scope := m.scope, depth := m'.depth - 1 }
  | .failed fault m' => .failed fault { m' with scope := m.scope, depth := m'.depth - 1 }
  | .panicked least most console => .panicked least most console
  | .outOfFuel => .outOfFuel

end Machine

/-- How a run shows and takes lines. With a console, it is the console that does so; what follows a
run from outside may look at more of the machine. -/
class Dialogue (κ : Type) where
  writeLine (s : String) (pos : Position) : Exec κ Unit
  readLine (prompt : String) (pos : Position) : Exec κ String

instance {κ : Type} [Console κ] : Dialogue κ where
  writeLine := Machine.writeLine
  readLine := Machine.readLine

end Primer
