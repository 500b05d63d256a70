import TemplateUsage.Scan.Mode
import TemplateUsage.Text.Order
import TemplateUsage.Token

set_option autoImplicit false

/-!
# Faults of a template

Why a template is rejected. A fault is a cause; its code, its message and its
help are functions of the cause.
-/

namespace TemplateUsage

/-- Classes of fault. -/
inductive FaultCode where
  | malformed
  | unterminated
  | mismatchedTag
  | mismatchedBlock
  | unexpectedEnd
  deriving DecidableEq, Repr, Inhabited

/-- The code a diagnostic shows. -/
def FaultCode.text : FaultCode → String
  | .malformed => "T0001"
  | .unterminated => "T0002"
  | .mismatchedTag => "T0003"
  | .mismatchedBlock => "T0004"
  | .unexpectedEnd => "T0005"

/-- Why a template is rejected. -/
inductive Fault where
  /-- A comment without its end. -/
  | unterminatedComment (form : CommentForm)
  /-- A closing tag without a name or without its end. -/
  | malformedClosingTag
  /-- A character that cannot stand in an opening tag. -/
  | strayInTag (char : Char) (tag : String)
  /-- A character that cannot stand in a curly expression. -/
  | strayInMustache (char : Char)
  /-- An equals sign without a value. -/
  | missingValue
  /-- A partial. -/
  | partialCall
  /-- An inverse section written with a caret. -/
  | caretSection
  /-- The text ends inside a construct. -/
  | unterminated (mode : Mode)
  /-- A token that cannot stand where it stands. -/
  | unexpectedToken (kind : Kind) (expected : List Lookahead)
  /-- The text ends too early. -/
  | unexpectedEnd (expected : List Lookahead)
  /-- An element closed under another name. -/
  | tagMismatch (opened closed : String)
  /-- A block closed under another path. -/
  | blockMismatch (opened closed : String)
  deriving DecidableEq, Repr, Inhabited

/-- Class of a fault. -/
def Fault.code : Fault → FaultCode
  | .unterminatedComment _ => .unterminated
  | .unterminated _ => .unterminated
  | .unexpectedEnd _ => .unexpectedEnd
  | .tagMismatch _ _ => .mismatchedTag
  | .blockMismatch _ _ => .mismatchedBlock
  | _ => .malformed

/-- A single character between quotes. -/
def showChar (c : Char) : String :=
  if c = '\'' then "\"'\"" else "'" ++ String.singleton c ++ "'"

/-- Message of a fault. -/
def Fault.message : Fault → String
  | .unterminatedComment _ => "unterminated comment"
  | .malformedClosingTag => "malformed closing tag"
  | .strayInTag c tag => "unexpected character " ++ showChar c ++ " in tag <" ++ tag ++ ">"
  | .strayInMustache c => "unexpected character " ++ showChar c ++ " in mustache"
  | .missingValue => "missing attribute value"
  | .partialCall => "partials are not supported"
  | .caretSection => "`\x7b\x7b^` inverse sections are not supported"
  | .unterminated (.tag name) => "unterminated opening tag <" ++ name ++ ">"
  | .unterminated (.quoted _) => "unterminated attribute value"
  | .unterminated (.expression _) => "unterminated mustache"
  | .unexpectedToken kind _ => "unexpected " ++ kind.description
  | .unexpectedEnd _ => "unexpected end of template"
  | .tagMismatch opened closed =>
      "closing tag </" ++ closed ++ "> does not match <" ++ opened ++ ">"
  | .blockMismatch opened closed =>
      "`\x7b\x7b#" ++ opened ++ "\x7d\x7d` closed by `\x7b\x7b/" ++ closed ++ "\x7d\x7d`"

/-- Names of what could have come next, each once, in code point order. -/
def expectedHelp (expected : List Lookahead) : Option String :=
  match Text.sortedDistinct (expected.map Lookahead.description) with
  | [] => none
  | names => some ("expected one of: " ++ String.intercalate ", " names)

/-- Advice on mending a fault. -/
def Fault.help : Fault → Option String
  | .unterminatedComment form => some ("close the comment with `" ++ form.closer ++ "`")
  | .caretSection => some "use `\x7b\x7belse\x7d\x7d` inside the block"
  | .unterminated (.tag _) => some "close the tag with `>` or `/>`"
  | .unterminated (.quoted quote) => some ("add the closing " ++ String.singleton quote)
  | .unterminated (.expression closer) => some ("close the mustache with `" ++ closer.text ++ "`")
  | .unexpectedToken _ expected => expectedHelp expected
  | .unexpectedEnd expected => expectedHelp expected
  | .tagMismatch opened _ => some ("close the element with </" ++ opened ++ ">")
  | .blockMismatch opened _ => some ("close the block with `\x7b\x7b/" ++ opened ++ "\x7d\x7d`")
  | _ => none

end TemplateUsage
