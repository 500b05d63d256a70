import TemplateUsage.Node.Build
import TemplateUsage.Recogniser
import TemplateUsage.Scan

set_option autoImplicit false

/-!
# Parsing a template

A text is scanned, its tokens are recognised, and the tree is built. A token
that cannot stand where it stands is reported before any later fault of the
scanner, and the checks of the tree come only after the whole text is
recognised.
-/

namespace TemplateUsage

/-- Why a template has no tree. -/
inductive ParseError where
  | rejected (error : SyntaxError)
  /-- A number of the template cannot be read. -/
  | numeral (error : NumeralError)
  deriving DecidableEq, Repr, Inhabited

/-- Message of a number that stops the building of a tree. -/
def NumeralError.stopMessage (error : NumeralError) : String :=
  "Error trying to process rule \"number\":\n\n" ++ error.message

namespace Template

open Recogniser

/-- A text whose tokens could all be taken in. -/
structure Reading where
  tokens : List Token
  config : Config

/-- Scans a text to its end and takes its tokens in. -/
def read (source : String) : Except Rejection Reading :=
  let scan := Scan.ofText source
  match Config.initial.readAll scan.tokens with
  | .error refusal =>
      .error ⟨.unexpectedToken refusal.token.kind refusal.expected, refusal.token.lexeme.span⟩
  | .ok config =>
      match scan.rejection with
      | some rejection => .error rejection
      | none => .ok ⟨scan.tokens, config⟩

/-- Where a text that ends too early is shown to end: where its last token ends. A
last token with an empty value, such as an empty comment, gives no place, and the
beginning of the text stands for it. -/
def endPoint (tokens : List Token) : Point :=
  match tokens.getLast? with
  | some token => if token.lexeme.value.isEmpty then ⟨0, 1, 1⟩ else token.lexeme.span.stop
  | none => ⟨0, 1, 1⟩

/-- The end of a text, on the line and column where it is shown to end. -/
def endSpan (source : String) (tokens : List Token) : Span :=
  let point := endPoint tokens
  ⟨⟨source.length, point.line, point.column⟩, ⟨source.length, 0, 0⟩⟩

/-- The statements of a text. -/
def recognise (source : String) : Except Rejection (List Phrase.Statement) := do
  let reading ← read source
  match reading.config.finish with
  | .ok statements => return statements
  | .error expected => throw ⟨.unexpectedEnd expected, endSpan source reading.tokens⟩

/-- The tree of a text. -/
def parse (file source : String) : Except ParseError Node :=
  match recognise source with
  | .error rejection => .error (.rejected (.ofRejection file source rejection))
  | .ok statements =>
      match Phrase.buildTemplate file statements with
      | .ok node => .ok node
      | .error (.rejected rejection) => .error (.rejected (.ofRejection file source rejection))
      | .error (.numeral error) => .error (.numeral error)

end Template

end TemplateUsage
