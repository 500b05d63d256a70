import TemplateUsage.Recogniser.Position

set_option autoImplicit false

/-!
# Actions of the recogniser

On what comes next the recogniser may complete a phrase, take the token in, or
accept the template; where it can do none of these it rejects. Of what comes
next only the kind is looked at.

Just after the last token of certain phrases the recogniser first checks that
what comes next can follow such a phrase at all, wherever it stands; only then
it looks at where this one stands. The two checks differ in what they expect,
which a rejection reports.
-/

namespace TemplateUsage.Recogniser

open Phrase

/-! ## What can follow a phrase -/

/-- Kinds of token a statement starts with. -/
def statementStarts : List Kind :=
  [.htmlComment, .curlyComment, .startTag, .text, .openCurly, .openBlock, .openTriple]

/-- Kinds of token an expression starts with. -/
def expressionStarts : List Kind :=
  [.boolean, .null, .number, .path, .string, .undefined, .openParen]

/-- Kinds of token that end a call. -/
def callEnds : List Kind := [.blockParams, .closeCurly, .closeParen, .closeTriple]

/-- Kinds of token a part of a tag starts with. -/
def tagPartStarts : List Kind := [.attributeName, .blockParams, .curlyComment, .openCurly]

/-- Kinds of token that end an opening tag. -/
def tagEnds : List Kind := [.tagEnd, .tagSelfClose, .voidTagEnd]

/-- Kinds of token that end a list of statements. -/
def contentEnds : List Kind := [.endTag, .openEndBlock, .openElse]

/-- Phrases that are checked for what follows them. -/
inductive Follow where
  | statement
  | curlyComment
  | mustache
  | params
  | expression
  deriving DecidableEq, Repr, Inhabited

/-- What can follow a phrase, wherever it stands. -/
def Follow.kinds : Follow → List Kind
  | .statement => statementStarts ++ contentEnds
  | .curlyComment => statementStarts ++ contentEnds ++ [.attributeName, .blockParams] ++ tagEnds
  | .mustache =>
      statementStarts ++ contentEnds ++
        [.attributeName, .attributeText, .blockParams, .quoteClose] ++ tagEnds
  | .params => .closeCurly :: tagPartStarts ++ tagEnds
  | .expression => expressionStarts ++ .hashKey :: callEnds

/-- Whether the end of the template can follow a phrase. -/
def Follow.beforeEnd : Follow → Bool
  | .statement | .curlyComment | .mustache => true
  | .params | .expression => false

/-- Whether a phrase can be followed by what comes next. -/
def Follow.allows (follow : Follow) : Lookahead → Bool
  | .token kind => follow.kinds.contains kind
  | .finish => follow.beforeEnd

/-- A position, and the phrases just read that are still to be checked for what
follows them, innermost first. -/
structure Config where
  position : Position
  checks : List Follow

/-- A configuration with nothing to check. -/
def Position.settled (position : Position) : Config := ⟨position, []⟩

/-- A configuration just after a phrase. -/
def Position.after (position : Position) (follow : Follow) : Config := ⟨position, [follow]⟩

/-- A configuration just after a phrase that makes a statement. -/
def Position.afterStatement (position : Position) (follow : Follow) : Config :=
  ⟨position, [follow, .statement]⟩

/-- The beginning of a template. -/
def Config.initial : Config := Position.initial.settled

/-! ## Calls -/

/-- The call with one more expression; after a pair there is no place for one. -/
def Progress.add? : Progress → Option (Expression → Progress)
  | .start => some fun expression => .arguments expression []
  | .arguments callee args => some fun expression => .arguments callee (expression :: args)
  | .key callee args named name =>
      some fun expression => .pairs callee args (.mk name expression :: named)
  | .pairs _ _ _ => none

/-- The call with one more key. -/
def Progress.addKey? : Progress → Option (Lexeme → Progress)
  | .arguments callee args => some (.key callee args [])
  | .pairs callee args named => some (.key callee args named)
  | .start | .key _ _ _ _ => none

/-- The call, if it can end here. -/
def Progress.complete? : Progress → Option Call
  | .arguments callee args => some (.mk callee args.reverse [])
  | .pairs callee args named => some (.mk callee args.reverse named.reverse)
  | .start | .key _ _ _ _ => none

/-- Takes in the start of an expression. -/
def shiftExpression? (call : OpenCall) (progress : Progress) (kind : Kind) :
    Option (Lexeme → Config) :=
  match progress.add? with
  | none => none
  | some add =>
      match kind with
      | .openParen =>
          some fun lexeme =>
            (Position.call { call with pending := ⟨progress, lexeme⟩ :: call.pending }
              .start).settled
      | kind =>
          (Atom.ofKind? kind).map fun sort lexeme =>
            (Position.call call (add (.atom sort lexeme))).after .expression

/-- Takes in a token inside a call. -/
def shiftCall? (call : OpenCall) (progress : Progress) (kind : Kind) : Option (Lexeme → Config) :=
  match kind with
  | .hashKey =>
      progress.addKey?.map fun addKey lexeme => (Position.call call (addKey lexeme)).settled
  | kind => shiftExpression? call progress kind

/-- Where the recogniser stands after a mustache. -/
def MustacheSite.close (site : MustacheSite) (mustache : Mustache) : Config :=
  match site with
  | .statement content =>
      (Position.content (content.add (.mustache mustache))).afterStatement .mustache
  | .value assignment => (Position.tag (assignment.assign (.mustache mustache))).after .mustache
  | .quoted quote => (Position.quoted (quote.add (.mustache mustache))).after .mustache

/-- Where the recogniser stands after a head. -/
def HeadSite.close (site : HeadSite) (head : Head) : Position :=
  match site with
  | .block content => .content (content.enter (.branch [] head))
  | .chained chain => .content (chain.outer.enter (.branch (chain.latest :: chain.before) head))

/-- Takes in what closes a call between curly braces. -/
def shiftCurlyEnd? (site : Site) (opening : Lexeme) (call : Call) (kind : Kind) :
    Option (Lexeme → Config) :=
  match site, kind with
  | .mustache site true, .closeTriple =>
      some fun closing => site.close ⟨true, opening, call, closing⟩
  | .mustache site false, .closeCurly =>
      some fun closing => site.close ⟨false, opening, call, closing⟩
  | .head site, .closeCurly =>
      some fun closing => (site.close ⟨opening, call, none, closing⟩).settled
  | .head site, .blockParams =>
      some fun params => (Position.params site opening call params).after .params
  | .modifier tag, .closeCurly =>
      some fun closing => (Position.tag (tag.add (.modifier opening call closing))).settled
  | _, _ => none

/-- Takes in what closes a call. -/
def shiftCallEnd? (call : OpenCall) (complete : Call) (kind : Kind) : Option (Lexeme → Config) :=
  match call.pending with
  | [] => shiftCurlyEnd? call.site call.opening complete kind
  | ⟨progress, opening⟩ :: pending =>
      match kind with
      | .closeParen =>
          progress.add?.map fun add closing =>
            (Position.call { call with pending := pending }
              (add (.nested opening complete closing))).after .expression
      | _ => none

/-- Takes in the opening of a call between curly braces. -/
def openCall (site : Site) : Lexeme → Config :=
  fun opening => (Position.call ⟨site, opening, []⟩ .start).settled

/-! ## Statements and tags -/

/-- Takes in a token between statements. -/
def shiftContent? (content : Content) (kind : Kind) : Option (Lexeme → Config) :=
  match kind with
  | .text => some fun lexeme => (Position.content (content.add (.text lexeme))).after .statement
  | .htmlComment =>
      some fun lexeme => (Position.content (content.add (.htmlComment lexeme))).after .statement
  | .curlyComment =>
      some fun lexeme =>
        (Position.content (content.add (.curlyComment lexeme))).afterStatement .curlyComment
  | .openCurly => some (openCall (.mustache (.statement content) false))
  | .openTriple => some (openCall (.mustache (.statement content) true))
  | .openBlock => some (openCall (.head (.block content)))
  | .startTag => some fun name => (Position.tag ⟨content, name, []⟩).settled
  | .endTag =>
      match content.levels with
      | ⟨.element tag tagEnd, before⟩ :: levels =>
          some fun endTag =>
            (Position.content ⟨.element tag tagEnd content.statements.reverse endTag :: before,
              levels⟩).after .statement
      | _ => none
  | _ => none

/-- Takes in a token between the parts of an opening tag. -/
def shiftTag? (tag : OpenTag) (kind : Kind) : Option (Lexeme → Config) :=
  match kind with
  | .attributeName => some fun name => (Position.attribute tag name).settled
  | .blockParams => some fun lexeme => (Position.tag (tag.add (.params lexeme))).after .params
  | .curlyComment =>
      some fun lexeme => (Position.tag (tag.add (.comment lexeme))).after .curlyComment
  | .openCurly => some (openCall (.modifier tag))
  | .tagEnd =>
      some fun tagEnd => (Position.content (tag.outer.enter (.element tag.tag tagEnd))).settled
  | .tagSelfClose =>
      some fun tagEnd =>
        (Position.content (tag.outer.add (.selfClosing tag.tag tagEnd))).after .statement
  | .voidTagEnd =>
      some fun tagEnd => (Position.content (tag.outer.add (.void tag.tag tagEnd))).after .statement
  | _ => none

/-- Takes in the value of an attribute, or its start. -/
def shiftValue? (assignment : Assignment) (kind : Kind) : Option (Lexeme → Config) :=
  match kind with
  | .attributeText => some fun lexeme => (Position.tag (assignment.assign (.text lexeme))).settled
  | .openCurly => some (openCall (.mustache (.value assignment) false))
  | .openTriple => some (openCall (.mustache (.value assignment) true))
  | .quoteOpen => some fun lexeme => (Position.quoted ⟨assignment, lexeme, []⟩).settled
  | _ => none

/-- Takes in a token inside a quoted value. -/
def shiftQuoted? (quote : OpenQuote) (kind : Kind) : Option (Lexeme → Config) :=
  match kind with
  | .attributeText => some fun lexeme => (Position.quoted (quote.add (.text lexeme))).settled
  | .openCurly => some (openCall (.mustache (.quoted quote) false))
  | .openTriple => some (openCall (.mustache (.quoted quote) true))
  | .quoteClose =>
      some fun closing =>
        (Position.tag (quote.assignment.assign
          (.quoted quote.opening quote.parts.reverse closing))).settled
  | _ => none

/-- Takes in the opening of a block's closing, once its last section has its inverse. -/
def shiftEnd? (chain : Chain) (inverse : Inverse) (kind : Kind) : Option (Lexeme → Config) :=
  match chain.before, kind with
  | [], .openEndBlock =>
      some fun opening =>
        (Position.endOpened
          ⟨chain.outer, chain.latest.head, chain.latest.program, inverse, opening⟩).settled
  | _, _ => none

/-- The block as a statement, once its closing is complete. -/
def OpenEnd.close (block : OpenEnd) (path closing : Lexeme) : Content :=
  block.outer.add
    (.block block.head block.program block.inverse ⟨block.opening, path, closing⟩)

/-! ## Actions -/

/-- Takes a token of this kind in. -/
def Position.shift? (position : Position) (kind : Kind) : Option (Lexeme → Config) :=
  match position with
  | .content body => shiftContent? body kind
  | .tag opened => shiftTag? opened kind
  | .attribute opened name =>
      if kind = .equals then
        some fun equals => (Position.assigned ⟨opened, name, equals⟩).settled
      else none
  | .assigned assignment => shiftValue? assignment kind
  | .quoted quote => shiftQuoted? quote kind
  | .call opened progress => shiftCall? opened progress kind
  | .called opened complete => shiftCallEnd? opened complete kind
  | .params site opening complete names =>
      if kind = .closeCurly then
        some fun closing => (site.close ⟨opening, complete, some names, closing⟩).settled
      else none
  | .sectionEnd chain =>
      if kind = .openElse then some fun opening => (Position.elseOpened chain opening).settled
      else shiftEnd? chain .absent kind
  | .elseOpened chain opening =>
      if kind = .closeCurly then
        some fun closing =>
          (Position.content (chain.outer.enter
            (.otherwise chain.latest chain.before opening closing))).settled
      else shiftExpression? ⟨.head (.chained chain), opening, []⟩ .start kind
  | .inverse chain ending => shiftEnd? chain ending kind
  | .endOpened block =>
      if kind = .path then some fun path => (Position.endPath block path).after .expression
      else none
  | .endPath block path =>
      if kind = .closeCurly then
        some fun closing => (Position.content (block.close path closing)).after .statement
      else none

/-- Completes the statements of a section, of a plain else, before the token that ends them. -/
def reduceContent? (content : Content) (kind : Kind) : Option Position :=
  match content.levels with
  | ⟨.branch before head, outer⟩ :: levels =>
      if kind = .openEndBlock ∨ kind = .openElse then
        some (.sectionEnd ⟨⟨outer, levels⟩, ⟨head, content.statements.reverse⟩, before⟩)
      else none
  | ⟨.otherwise latest before opening closing, outer⟩ :: levels =>
      if kind = .openEndBlock ∨ (kind = .openElse ∧ content.statements ≠ []) then
        some (.inverse ⟨⟨outer, levels⟩, latest, before⟩
          (.otherwise opening closing content.statements.reverse))
      else none
  | _ => none

/-- Completes a chained else with its inverse, which becomes the inverse of the section before. -/
def reduceChain? (chain : Chain) (inverse : Inverse) (kind : Kind) : Option Position :=
  match chain.before, kind with
  | previous :: before, .openEndBlock =>
      some (.inverse ⟨chain.outer, previous, before⟩
        (.chained chain.latest.head chain.latest.program inverse))
  | _, _ => none

/-- Completes the innermost phrase before a token of this kind. -/
def Position.reduce? (position : Position) (kind : Kind) : Option Position :=
  match position with
  | .content body => reduceContent? body kind
  | .attribute opened name =>
      if tagPartStarts.contains kind || tagEnds.contains kind then
        some (.tag (opened.add (.flag name)))
      else none
  | .call opened progress =>
      if callEnds.contains kind then progress.complete?.map (.called opened) else none
  | .sectionEnd chain => reduceChain? chain .absent kind
  | .inverse chain ending => reduceChain? chain ending kind
  | _ => none

/-- The template, if it is complete. -/
def Position.accept? : Position → Option (List Statement)
  | .content ⟨statements, []⟩ => some statements.reverse
  | _ => none

/-- Takes a token of this kind in. -/
def Config.shift? (config : Config) (kind : Kind) : Option (Lexeme → Config) :=
  match config.checks with
  | [] => config.position.shift? kind
  | _ :: _ => none

/-- Completes a phrase on what comes next: the phrase just read, if it can be
followed so, and else the innermost phrase of the position. -/
def Config.reduce? (config : Config) (next : Lookahead) : Option Config :=
  match config.checks with
  | follow :: checks => if follow.allows next then some ⟨config.position, checks⟩ else none
  | [] =>
      match next with
      | .token kind => (config.position.reduce? kind).map Position.settled
      | .finish => none

/-- The template, if it is complete. -/
def Config.accept? (config : Config) : Option (List Statement) :=
  match config.checks with
  | [] => config.position.accept?
  | _ :: _ => none

/-- Whether there is an action on what comes next. -/
def Config.acts (config : Config) (next : Lookahead) : Bool :=
  (config.reduce? next).isSome ||
    match next with
    | .token kind => (config.shift? kind).isSome
    | .finish => config.accept?.isSome

/-- Everything there is an action on. -/
def Config.expected (config : Config) : List Lookahead := Lookahead.all.filter config.acts

end TemplateUsage.Recogniser
