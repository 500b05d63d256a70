import TemplateUsage.Extraction

set_option autoImplicit false

/-!
# Log

What the work on a template reports on its way. Each step reports when it is
done, so a template that fails leaves the records of the steps before.
-/

namespace TemplateUsage.CommandLine

/-- A step that is done. -/
inductive LogRecord where
  | scanned (tokens characters : Nat)
  | parsed (file : String) (statements : Nat)
  | collected (usages : Nat)
  | listed (file : String) (tokens : Nat)
  deriving DecidableEq, Repr, Inhabited

/-- The line of a record. -/
def LogRecord.text : LogRecord → String
  | .scanned tokens characters =>
      "template_tokens.frontend.lexer: Lexed " ++ toString tokens ++ " tokens from " ++
        toString characters ++ " characters"
  | .parsed file statements =>
      "template_tokens.frontend.parser: Parsed " ++ file ++ ": " ++ toString statements ++
        " top-level statements"
  | .collected usages =>
      "template_tokens.analysis.token_collector: Collected " ++ toString usages ++
        " token usages"
  | .listed file tokens =>
      "template_tokens.driver: " ++ file ++ ": " ++ toString tokens ++ " tokens"

/-- Records of the work on a text; a text of blanks is no work. -/
def logRecords (file source : String) : List LogRecord :=
  if Text.isBlankText source then []
  else
    match Template.read source with
    | .error _ => []
    | .ok reading =>
        .scanned reading.tokens.length source.length ::
          match Template.parse file source with
          | .error _ => []
          | .ok node =>
              let count := (node.collect Scope.empty).length
              [.parsed file node.statements.length, .collected count, .listed file count]

end TemplateUsage.CommandLine
