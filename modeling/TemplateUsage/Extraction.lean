import TemplateUsage.Template
import TemplateUsage.Usage

set_option autoImplicit false

/-!
# Extraction

The usages of a template text. A text of blanks only is not parsed and has no
usages.
-/

namespace TemplateUsage

/-- The usages of a text, in document order. -/
def collectUsages (file source : String) : Except ParseError (List Usage) :=
  if Text.isBlankText source then .ok []
  else (Template.parse file source).map fun node => node.collect Scope.empty

/-- The tokens of a text, in document order, with repetitions. -/
def extractTokens (file source : String) : Except ParseError (List String) :=
  (collectUsages file source).map fun usages => usages.map Usage.token

end TemplateUsage
