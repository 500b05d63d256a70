import TemplateUsage.Number.Double

set_option autoImplicit false

/-!
# Numbers

A number written without a point is an integer of any size, one with a point is
a double. Numbers are compared by their exact values, across the two sorts.
-/

namespace TemplateUsage

/-- A number of a template. -/
inductive Number where
  | integer (value : Int)
  | double (value : Double)
  deriving DecidableEq, Repr, Inhabited

/-- The exact value of a number. -/
inductive ExactValue where
  | finite (value : Dyadic)
  | infinite (negative : Bool)
  deriving DecidableEq

/-- The exact value of a double. -/
def Double.exact : Double → ExactValue
  | .finite negative significand exponent =>
      .finite (Dyadic.ofIntWithPrec (if negative then -significand else significand) (-exponent))
  | .infinite negative => .infinite negative

/-- The exact value of a number. -/
def Number.exact : Number → ExactValue
  | .integer value => .finite (Dyadic.ofInt value)
  | .double value => value.exact

/-- Equality of exact values. -/
def Number.same (a b : Number) : Bool := decide (a.exact = b.exact)

end TemplateUsage
