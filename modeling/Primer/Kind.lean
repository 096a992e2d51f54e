/-!
# Kinds of values

The dynamic type of a value, as messages name it.
-/

set_option autoImplicit false

namespace Primer

/-- The kind of a value. -/
inductive Kind where
  | integer | float | boolean | text | subroutine
deriving DecidableEq, Repr

namespace Kind

/-- The name that messages use. -/
def title : Kind → String
  | integer => "Integer"
  | float => "Float"
  | boolean => "Boolean"
  | text => "String"
  | subroutine => "Subroutine"

/-- Whether values of the kind are numbers. -/
def isNumeric : Kind → Bool
  | integer | float => true
  | _ => false

end Kind

end Primer
