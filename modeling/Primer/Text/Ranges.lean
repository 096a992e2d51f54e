/-!
# Ranges of code points

Properties of characters are given by tables of closed ranges.
-/

set_option autoImplicit false

namespace Primer.Text

/-- Whether a code point lies in one of the closed ranges. -/
def inRanges (ranges : List (Nat × Nat)) (n : Nat) : Bool :=
  ranges.any fun (low, high) => low ≤ n && n ≤ high

end Primer.Text
