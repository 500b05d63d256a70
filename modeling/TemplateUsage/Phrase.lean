import TemplateUsage.Token

set_option autoImplicit false

/-!
# Phrases

The phrases of a template, down to the written tokens. The place of a lexeme in
a phrase fixes the kind of its token, so every phrase is a derivation of the
template grammar, and `tokens` gives back the tokens it was read from.

    template  := statement*
    statement := text | comment | curly comment | mustache | block | element
    mustache  := {{ call }} | {{{ call }}}
    block     := {{# call params? }} statement* else? {{/ path }}
    else      := {{else }} statement* | {{else call params? }} statement* else?
    call      := expression expression* pair*
    pair      := key= expression
    expression := path | literal | ( call )
    element   := <name part* > statement* </name> | <name part* /> | <void part* >
    part      := attribute | modifier | params | curly comment
    attribute := name | name = value
    value     := text | mustache | quote (text | mustache)* quote
    modifier  := {{ call }}
-/

namespace TemplateUsage

/-- Sorts of expression that are a single token. -/
inductive Atom where
  | path
  | string
  | number
  | boolean
  | null
  | undefined
  deriving DecidableEq, Repr, Inhabited

/-- The kind of an atom's token. -/
def Atom.kind : Atom → Kind
  | .path => .path
  | .string => .string
  | .number => .number
  | .boolean => .boolean
  | .null => .null
  | .undefined => .undefined

/-- The atom a kind of token makes. -/
def Atom.ofKind? : Kind → Option Atom
  | .path => some .path
  | .string => some .string
  | .number => some .number
  | .boolean => some .boolean
  | .null => some .null
  | .undefined => some .undefined
  | _ => none

namespace Phrase

mutual

/-- An expression: an atom or a call in parentheses. -/
inductive Expression where
  | atom (sort : Atom) (lexeme : Lexeme)
  | nested (opening : Lexeme) (call : Call) (closing : Lexeme)

/-- A callee with its positional arguments and its pairs. -/
inductive Call where
  | mk (callee : Expression) (arguments : List Expression) (pairs : List Pair)

/-- A named argument. -/
inductive Pair where
  | mk (key : Lexeme) (value : Expression)

end

instance : Inhabited Expression := ⟨.atom .path default⟩
instance : Inhabited Call := ⟨.mk default [] []⟩
instance : Inhabited Pair := ⟨.mk default default⟩

/-- A call between curly braces; `trusting` when there are three. -/
structure Mustache where
  trusting : Bool
  opening : Lexeme
  call : Call
  closing : Lexeme
  deriving Inhabited

/-- A part of a quoted value. -/
inductive QuotedPart where
  | text (lexeme : Lexeme)
  | mustache (curly : Mustache)
  deriving Inhabited

/-- A value of an attribute. -/
inductive Value where
  | text (lexeme : Lexeme)
  | mustache (curly : Mustache)
  | quoted (opening : Lexeme) (parts : List QuotedPart) (closing : Lexeme)
  deriving Inhabited

/-- A part of an opening tag. -/
inductive TagPart where
  /-- An attribute without a value. -/
  | flag (name : Lexeme)
  | attribute (name equals : Lexeme) (value : Value)
  | modifier (opening : Lexeme) (call : Call) (closing : Lexeme)
  | params (lexeme : Lexeme)
  | comment (lexeme : Lexeme)
  deriving Inhabited

/-- An opening tag up to its end. -/
structure Tag where
  name : Lexeme
  parts : List TagPart
  deriving Inhabited

/-- The opening of a block or of a chained else, with its block parameters. -/
structure Head where
  opening : Lexeme
  call : Call
  params : Option Lexeme
  closing : Lexeme
  deriving Inhabited

/-- The closing of a block. -/
structure BlockEnd where
  opening : Lexeme
  path : Lexeme
  closing : Lexeme
  deriving Inhabited

mutual

/-- A statement. -/
inductive Statement where
  | text (lexeme : Lexeme)
  | htmlComment (lexeme : Lexeme)
  | curlyComment (lexeme : Lexeme)
  | mustache (curly : Mustache)
  | block (head : Head) (program : List Statement) (inverse : Inverse) (close : BlockEnd)
  | element (tag : Tag) (tagEnd : Lexeme) (body : List Statement) (endTag : Lexeme)
  | selfClosing (tag : Tag) (tagEnd : Lexeme)
  | void (tag : Tag) (tagEnd : Lexeme)

/-- What follows the program of a block. -/
inductive Inverse where
  | absent
  | otherwise (opening closing : Lexeme) (program : List Statement)
  | chained (head : Head) (program : List Statement) (inverse : Inverse)

end

instance : Inhabited Statement := ⟨.text default⟩
instance : Inhabited Inverse := ⟨.absent⟩

/-! ## Tokens of a phrase -/

mutual

/-- Tokens of an expression. -/
def Expression.tokens : Expression → List Token
  | .atom sort lexeme => [⟨sort.kind, lexeme⟩]
  | .nested opening call closing =>
      ⟨.openParen, opening⟩ :: call.tokens ++ [⟨.closeParen, closing⟩]

/-- Tokens of a call. -/
def Call.tokens : Call → List Token
  | .mk callee arguments pairs =>
      callee.tokens ++ argumentTokens arguments ++ pairTokens pairs

/-- Tokens of positional arguments. -/
def argumentTokens : List Expression → List Token
  | [] => []
  | argument :: rest => argument.tokens ++ argumentTokens rest

/-- Tokens of a pair. -/
def Pair.tokens : Pair → List Token
  | .mk key value => ⟨.hashKey, key⟩ :: value.tokens

/-- Tokens of pairs. -/
def pairTokens : List Pair → List Token
  | [] => []
  | pair :: rest => pair.tokens ++ pairTokens rest

end

/-- Tokens of a mustache. -/
def Mustache.tokens (mustache : Mustache) : List Token :=
  ⟨if mustache.trusting then .openTriple else .openCurly, mustache.opening⟩ ::
    mustache.call.tokens ++
    [⟨if mustache.trusting then .closeTriple else .closeCurly, mustache.closing⟩]

/-- Tokens of a part of a quoted value. -/
def QuotedPart.tokens : QuotedPart → List Token
  | .text lexeme => [⟨.attributeText, lexeme⟩]
  | .mustache curly => curly.tokens

/-- Tokens of a value. -/
def Value.tokens : Value → List Token
  | .text lexeme => [⟨.attributeText, lexeme⟩]
  | .mustache curly => curly.tokens
  | .quoted opening parts closing =>
      ⟨.quoteOpen, opening⟩ :: parts.flatMap QuotedPart.tokens ++ [⟨.quoteClose, closing⟩]

/-- Tokens of a part of an opening tag. -/
def TagPart.tokens : TagPart → List Token
  | .flag name => [⟨.attributeName, name⟩]
  | .attribute name equals value => ⟨.attributeName, name⟩ :: ⟨.equals, equals⟩ :: value.tokens
  | .modifier opening call closing =>
      ⟨.openCurly, opening⟩ :: call.tokens ++ [⟨.closeCurly, closing⟩]
  | .params lexeme => [⟨.blockParams, lexeme⟩]
  | .comment lexeme => [⟨.curlyComment, lexeme⟩]

/-- Tokens of an opening tag up to its end. -/
def Tag.tokens (tag : Tag) : List Token :=
  ⟨.startTag, tag.name⟩ :: tag.parts.flatMap TagPart.tokens

/-- Tokens of a head that starts with the given kind. -/
def Head.tokens (kind : Kind) (head : Head) : List Token :=
  ⟨kind, head.opening⟩ :: head.call.tokens ++ head.params.toList.map (⟨.blockParams, ·⟩) ++
    [⟨.closeCurly, head.closing⟩]

/-- Tokens of the closing of a block. -/
def BlockEnd.tokens (close : BlockEnd) : List Token :=
  [⟨.openEndBlock, close.opening⟩, ⟨.path, close.path⟩, ⟨.closeCurly, close.closing⟩]

mutual

/-- Tokens of a statement. -/
def Statement.tokens : Statement → List Token
  | .text lexeme => [⟨.text, lexeme⟩]
  | .htmlComment lexeme => [⟨.htmlComment, lexeme⟩]
  | .curlyComment lexeme => [⟨.curlyComment, lexeme⟩]
  | .mustache curly => curly.tokens
  | .block head program inverse close =>
      head.tokens .openBlock ++ statementTokens program ++ inverse.tokens ++ close.tokens
  | .element tag tagEnd body endTag =>
      tag.tokens ++ ⟨.tagEnd, tagEnd⟩ :: statementTokens body ++ [⟨.endTag, endTag⟩]
  | .selfClosing tag tagEnd => tag.tokens ++ [⟨.tagSelfClose, tagEnd⟩]
  | .void tag tagEnd => tag.tokens ++ [⟨.voidTagEnd, tagEnd⟩]

/-- Tokens of an inverse. -/
def Inverse.tokens : Inverse → List Token
  | .absent => []
  | .otherwise opening closing program =>
      ⟨.openElse, opening⟩ :: ⟨.closeCurly, closing⟩ :: statementTokens program
  | .chained head program inverse =>
      head.tokens .openElse ++ statementTokens program ++ inverse.tokens

/-- Tokens of statements. -/
def statementTokens : List Statement → List Token
  | [] => []
  | statement :: rest => statement.tokens ++ statementTokens rest

end

end Phrase

end TemplateUsage
