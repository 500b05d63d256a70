import TemplateUsage.Diagnostic
import TemplateUsage.Fault

set_option autoImplicit false

/-!
# Rejected templates

A rejection says why a template is rejected and where; a syntax error is a
rejection of a named file, with the text the diagnostic quotes.
-/

namespace TemplateUsage

/-- A fault and where it was found. -/
structure Rejection where
  fault : Fault
  span : Span
  deriving DecidableEq, Repr, Inhabited

/-- A rejection of a named file. -/
structure SyntaxError where
  fault : Fault
  location : Location
  /-- The text of the file, when the diagnostic may quote it. -/
  source : Option String
  deriving DecidableEq, Repr, Inhabited

namespace SyntaxError

/-- The rejection of a file with the given text. -/
def ofRejection (file source : String) (rejection : Rejection) : SyntaxError :=
  ⟨rejection.fault, rejection.span.inFile file, some source⟩

/-- The problem to report. -/
def diagnostic (error : SyntaxError) : Diagnostic where
  message := error.fault.message
  location := some error.location
  code := some error.fault.code.text
  help := error.fault.help

/-- The sources the error brings with it. -/
def sources (error : SyntaxError) : Sources :=
  match error.source with
  | some text => Sources.empty.insert error.location.file text
  | none => Sources.empty

/-- The error as shown, without colour. -/
def render (error : SyntaxError) : String := error.diagnostic.render false error.sources

end SyntaxError

end TemplateUsage
