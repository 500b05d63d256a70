set_option autoImplicit false

/-!
# Sets of texts in code point order

A set of names is kept as its strictly increasing list, so that two sets are
equal exactly when their lists are.
-/

namespace TemplateUsage.Text

/-- Inserts a text into an increasing list; a text already there is not repeated. -/
def insertSorted (s : String) : List String → List String
  | [] => [s]
  | t :: rest =>
      if s < t then s :: t :: rest
      else if s = t then t :: rest
      else t :: insertSorted s rest

/-- Distinct texts of a list in increasing order. -/
def sortedDistinct (texts : List String) : List String :=
  texts.foldr insertSorted []

end TemplateUsage.Text
