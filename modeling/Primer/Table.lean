import Primer.Value

/-!
# Tables of names

A table maps names to slots. A slot may be empty, holds a value after its first write, and is
sealed for good by a write that declares a constant.
-/

set_option autoImplicit false

namespace Primer

/-- The place of one name: its value, and whether later writes are refused. -/
structure Slot where
  name : String
  value : Option Value
  isSealed : Bool

namespace Slot

/-- A place that was never written. -/
def empty (name : String) : Slot := ⟨name, none, false⟩

/-- Writes a value, and seals the place if `sealing`; a sealed place refuses. -/
def set (s : Slot) (v : Value) (sealing : Bool) (pos : Position) : Except Fault Slot :=
  if s.isSealed then .error ⟨.reassigned s.name, pos⟩
  else .ok ⟨s.name, some v, sealing⟩

end Slot

/-- A table of names, each with at most one slot. -/
structure Table where
  slots : List Slot

namespace Table

/-- The table without names. -/
def empty : Table := ⟨[]⟩

/-- The slot of a name. -/
def slot? (t : Table) (name : String) : Option Slot :=
  t.slots.find? fun s => s.name == name

/-- The slot of a name, or a new one. -/
def slot (t : Table) (name : String) : Slot :=
  (t.slot? name).getD (Slot.empty name)

/-- Replaces the slot of the same name, or adds the slot at the end. -/
def putSlot (s : Slot) : List Slot → List Slot
  | [] => [s]
  | x :: xs => if x.name = s.name then s :: xs else x :: putSlot s xs

/-- Replaces or adds a slot. -/
def put (t : Table) (s : Slot) : Table := ⟨putSlot s t.slots⟩

/-- Makes sure that a name has a slot. -/
def reserve (t : Table) (name : String) : Table := t.put (t.slot name)

/-- The value of a name. -/
def lookup (t : Table) (name : String) : Option Value :=
  (t.slot? name).bind Slot.value

/-- Whether a name has a value. -/
def contains (t : Table) (name : String) : Bool := (t.lookup name).isSome

/-- The value of a name, or a fault if it has none. -/
def get (t : Table) (name : String) (pos : Position) : Except Fault Value :=
  match t.lookup name with
  | some v => .ok v
  | none => .error ⟨.undeclared name, pos⟩

/-- Writes a name, and seals it if `sealing`; a sealed name refuses. -/
def assign (t : Table) (name : String) (v : Value) (sealing : Bool) (pos : Position) :
    Except Fault Table :=
  match (t.slot name).set v sealing pos with
  | .ok s => .ok (t.put s)
  | .error fault => .error fault

end Table

end Primer
