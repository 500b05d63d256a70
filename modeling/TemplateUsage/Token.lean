import TemplateUsage.Location

set_option autoImplicit false

/-!
# Tokens

The kinds of token a template is made of, the tokens themselves, and what may
come next while reading: a token of some kind or the end of the template.
-/

namespace TemplateUsage

/-- Kinds of token. -/
inductive Kind where
  | text
  | htmlComment
  | curlyComment
  | startTag
  | endTag
  | attributeName
  | attributeText
  | path
  | string
  | number
  | boolean
  | null
  | undefined
  | hashKey
  | blockParams
  | openCurly
  | closeCurly
  | openTriple
  | closeTriple
  | openBlock
  | openEndBlock
  | openElse
  | openParen
  | closeParen
  | tagEnd
  | tagSelfClose
  | voidTagEnd
  | equals
  | quoteOpen
  | quoteClose
  deriving DecidableEq, Repr, Inhabited

/-- A written token without its kind: the value it carries and where it stands. -/
structure Lexeme where
  value : String
  span : Span
  deriving DecidableEq, Repr, Inhabited

/-- A token. -/
structure Token where
  kind : Kind
  lexeme : Lexeme
  deriving DecidableEq, Repr, Inhabited

/-- What comes next while a template is read. -/
inductive Lookahead where
  | token (kind : Kind)
  | finish
  deriving DecidableEq, Repr, Inhabited

/-- Every kind of token. -/
def Kind.all : List Kind :=
  [.text, .htmlComment, .curlyComment, .startTag, .endTag, .attributeName, .attributeText, .path,
    .string, .number, .boolean, .null, .undefined, .hashKey, .blockParams, .openCurly, .closeCurly,
    .openTriple, .closeTriple, .openBlock, .openEndBlock, .openElse, .openParen, .closeParen,
    .tagEnd, .tagSelfClose, .voidTagEnd, .equals, .quoteOpen, .quoteClose]

/-- Everything that may come next. -/
def Lookahead.all : List Lookahead := .finish :: Kind.all.map .token

/-- The words a message uses for a kind of token. -/
def Kind.description : Kind → String
  | .text => "text"
  | .htmlComment => "comment"
  | .curlyComment => "mustache comment"
  | .startTag => "opening tag"
  | .endTag => "closing tag"
  | .attributeName => "attribute name"
  | .attributeText => "attribute text"
  | .path => "path"
  | .string => "string"
  | .number => "number"
  | .boolean => "boolean"
  | .null => "`null`"
  | .undefined => "`undefined`"
  | .hashKey => "hash argument"
  | .blockParams => "block parameters"
  | .openCurly => "`\x7b\x7b`"
  | .closeCurly => "`\x7d\x7d`"
  | .openTriple => "`\x7b\x7b\x7b`"
  | .closeTriple => "`\x7d\x7d\x7d`"
  | .openBlock => "`\x7b\x7b#`"
  | .openEndBlock => "`\x7b\x7b/`"
  | .openElse => "`\x7b\x7belse`"
  | .openParen => "`(`"
  | .closeParen => "`)`"
  | .tagEnd => "`>`"
  | .tagSelfClose => "`/>`"
  | .voidTagEnd => "`>`"
  | .equals => "`=`"
  | .quoteOpen => "opening quote"
  | .quoteClose => "closing quote"

/-- The words a message uses for what comes next. -/
def Lookahead.description : Lookahead → String
  | .token kind => kind.description
  | .finish => "end of template"

end TemplateUsage
