import TemplateUsage.Phrase

set_option autoImplicit false

/-!
# Positions of the recogniser

While a template is read, the recogniser stands inside a number of phrases that
are not complete. A position holds what has been read of each of them. Lists
inside a position are kept latest first.
-/

namespace TemplateUsage.Recogniser

open Phrase

/-- A block head, or the head of a chained else, with its complete program. -/
structure Section where
  head : Head
  program : List Statement

/-- What statements may stand in. -/
inductive Enclosure where
  /-- The body of an element. -/
  | element (tag : Tag) (tagEnd : Lexeme)
  /-- The program of a section. The sections before it are complete, latest
  first; with none, the head opens the block. -/
  | branch (before : List Section) (head : Head)
  /-- The program of a plain else, after the section `latest` and those before it. -/
  | otherwise (latest : Section) (before : List Section) (opening closing : Lexeme)

/-- An enclosure and the statements that stand before it. -/
structure Level where
  enclosure : Enclosure
  before : List Statement

/-- The statements read so far at this depth, and the enclosures around them, innermost first. -/
structure Content where
  statements : List Statement
  levels : List Level

/-- Content with one more statement. -/
def Content.add (content : Content) (statement : Statement) : Content :=
  ⟨statement :: content.statements, content.levels⟩

/-- Content at the beginning of an enclosure. -/
def Content.enter (content : Content) (enclosure : Enclosure) : Content :=
  ⟨[], ⟨enclosure, content.statements⟩ :: content.levels⟩

/-- A block whose sections, up to the latest, are complete. -/
structure Chain where
  outer : Content
  latest : Section
  before : List Section

/-- An opening tag that is not complete. -/
structure OpenTag where
  outer : Content
  name : Lexeme
  parts : List TagPart

/-- The tag with one more part. -/
def OpenTag.add (tag : OpenTag) (part : TagPart) : OpenTag :=
  ⟨tag.outer, tag.name, part :: tag.parts⟩

/-- The tag as a phrase. -/
def OpenTag.tag (tag : OpenTag) : Tag := ⟨tag.name, tag.parts.reverse⟩

/-- An attribute that waits for its value. -/
structure Assignment where
  tag : OpenTag
  name : Lexeme
  equals : Lexeme

/-- The tag once the attribute has its value. -/
def Assignment.assign (assignment : Assignment) (value : Value) : OpenTag :=
  assignment.tag.add (.attribute assignment.name assignment.equals value)

/-- A quoted value that is not complete. -/
structure OpenQuote where
  assignment : Assignment
  opening : Lexeme
  parts : List QuotedPart

/-- The quoted value with one more part. -/
def OpenQuote.add (quote : OpenQuote) (part : QuotedPart) : OpenQuote :=
  ⟨quote.assignment, quote.opening, part :: quote.parts⟩

/-- Where a mustache may stand. -/
inductive MustacheSite where
  | statement (content : Content)
  | value (assignment : Assignment)
  | quoted (quote : OpenQuote)

/-- What a head may open. -/
inductive HeadSite where
  | block (content : Content)
  | chained (chain : Chain)

/-- What a call between curly braces may belong to. -/
inductive Site where
  | mustache (site : MustacheSite) (trusting : Bool)
  | head (site : HeadSite)
  | modifier (tag : OpenTag)

/-- What has been read of a call. -/
inductive Progress where
  | start
  | arguments (callee : Expression) (arguments : List Expression)
  | key (callee : Expression) (arguments : List Expression) (pairs : List Pair) (key : Lexeme)
  | pairs (callee : Expression) (arguments : List Expression) (pairs : List Pair)

/-- A call that waits for the call in parentheses it contains. -/
structure Pending where
  progress : Progress
  opening : Lexeme

/-- A call between curly braces that is not complete, with the calls around the
innermost one, innermost first. -/
structure OpenCall where
  site : Site
  opening : Lexeme
  pending : List Pending

/-- A block that waits for the rest of its closing. -/
structure OpenEnd where
  outer : Content
  head : Head
  program : List Statement
  inverse : Inverse
  opening : Lexeme

/-- Where the recogniser stands. -/
inductive Position where
  /-- Between statements. -/
  | content (content : Content)
  /-- Between the parts of an opening tag. -/
  | tag (tag : OpenTag)
  /-- After an attribute name. -/
  | attribute (tag : OpenTag) (name : Lexeme)
  /-- After the equals sign of an attribute. -/
  | assigned (assignment : Assignment)
  /-- Between the parts of a quoted value. -/
  | quoted (quote : OpenQuote)
  /-- Inside a call. -/
  | call (call : OpenCall) (progress : Progress)
  /-- After a complete call, before what closes it. -/
  | called (call : OpenCall) (complete : Call)
  /-- After block parameters, before what closes the head. -/
  | params (site : HeadSite) (opening : Lexeme) (call : Call) (params : Lexeme)
  /-- After the program of a section. -/
  | sectionEnd (chain : Chain)
  /-- After the opening of an else. -/
  | elseOpened (chain : Chain) (opening : Lexeme)
  /-- After the inverse of the latest section. -/
  | inverse (chain : Chain) (inverse : Inverse)
  /-- After the opening of a block's closing. -/
  | endOpened (block : OpenEnd)
  /-- After the path of a block's closing. -/
  | endPath (block : OpenEnd) (path : Lexeme)

/-- The beginning of a template. -/
def Position.initial : Position := .content ⟨[], []⟩

end TemplateUsage.Recogniser
