import Primer.Native.Conversion

/-!
# Characters and their codes

The two provided subroutines between a text of one character and the code of that character.
-/

set_option autoImplicit false

namespace Primer.Native

/-- The code of the only character of a text. -/
def codeOf (args : List Value) (pos : Position) : Except Fault Value := do
  let v ← single .asc args pos
  match v with
  | .text s =>
    match s.toList with
    | [c] => .ok (.integer (Int64.ofNat c.toNat))
    | cs => .error ⟨.notSingleCharacter cs.length, pos⟩
  | _ => .error ⟨.wrongArgument asc.name "a String" v.kind, pos⟩

/-- The text of the one character with a code. -/
def ofCode (args : List Value) (pos : Position) : Except Fault Value := do
  let v ← single .chr args pos
  match v with
  | .integer code =>
    match Integer.toChar? code with
    | some c => .ok (.text (String.ofList [c]))
    | none => .error ⟨.badCharacterCode code, pos⟩
  | _ => .error ⟨.wrongArgument chr.name "an Integer" v.kind, pos⟩

end Primer.Native
