import Primer.Draws
import Primer.Native.Conversion

/-!
# Drawing from a range

The provided subroutine that draws a number between two bounds: an integer if both are integers,
else a double. Bounds of doubles are checked one by one, but not how far they are apart, so the
generator may break off.
-/

set_option autoImplicit false

namespace Primer.Native

/-- A bound of a range as a double. -/
def drawBound (v : Value) (pos : Position) : Except Fault Float :=
  match v.toFloat? with
  | some x => .ok x
  | none => .error ⟨.wrongArgument random.name "numeric bounds" v.kind, pos⟩

/-- The fault of a range that holds nothing to draw. -/
def nothingToDraw (least most : Value) (pos : Position) : Fault :=
  ⟨.emptyRange least.shown most.shown, pos⟩

/-- What comes of drawing: a number and the generator after it, or nothing, as the generator broke
off over the bounds. -/
inductive Drawn where
  | number (value : Value) (draws : Draws)
  | tooWide (least most : Float)

/-- Draws a double between two values; equal bounds leave nothing to chance. -/
def drawFloat (draws : Draws) (least most : Value) (pos : Position) : Except Fault Drawn := do
  let a ← drawBound least pos
  let b ← drawBound most pos
  if !a.isFinite || !b.isFinite || b < a then .error (nothingToDraw least most pos)
  else if a == b then .ok (.number (.float a) draws)
  else
    match draws.float a b with
    | some (x, draws') => .ok (.number (.float x) draws')
    | none => .ok (.tooWide a b)

/-- Draws a number from a range. -/
def draw (draws : Draws) (args : List Value) (pos : Position) : Except Fault Drawn :=
  match args with
  | [.integer a, .integer b] =>
    if b.toInt < a.toInt then .error (nothingToDraw (.integer a) (.integer b) pos)
    else
      let (n, draws') := draws.integer a b
      .ok (.number (.integer n) draws')
  | [least, most] => drawFloat draws least most pos
  | _ => .error ⟨.wrongArity random.name 2 2 args.length, pos⟩

end Primer.Native
