import TemplateUsage.Fault
import TemplateUsage.Scan.Pattern

set_option autoImplicit false

/-!
# One step of the scanner

What the scanner does at the front of the remaining text, mode by mode: it
emits a token, passes over blanks, or fails. Main definition: `State.step`.
-/

namespace TemplateUsage.Scan

/-- The void elements, which have no closing tag. -/
def voidElements : List String :=
  ["area", "base", "br", "col", "command", "embed", "hr", "img", "input", "keygen", "link", "meta",
    "param", "source", "track", "wbr"]

/-- Where the scanner stands. -/
structure State where
  /-- Number of characters read. -/
  offset : Nat
  /-- The characters not yet read. -/
  rest : List Char
  /-- The open constructs, innermost first. -/
  modes : List OpenMode
  /-- Whether an equals sign waits for its value. -/
  awaitsValue : Bool

/-- The beginning of a text. -/
def State.initial (text : List Char) : State := ⟨0, text, [], false⟩

/-- What one step does. -/
inductive Step where
  /-- Emit a token that covers `width` characters; the open constructs become `modes`. -/
  | emit (kind : Kind) (value : List Char) (width : Nat) (modes : List OpenMode)
  /-- Pass over `width` blanks. -/
  | skip (width : Nat)
  /-- Fail on the next `width` characters. -/
  | fail (fault : Fault) (width : Nat)

/-- Emit a token found by a pattern. -/
def Step.found (kind : Kind) (found : Found) (modes : List OpenMode) : Step :=
  .emit kind found.value found.width modes

/-- A comment whose value starts `skipped` characters on. -/
def comment (form : CommentForm) (kind : Kind) (stop : List Char → Option Nat) (skipped : Nat)
    (cs : List Char) (modes : List OpenMode) : Step :=
  match breakAt stop (cs.drop skipped) with
  | some (value, width) => .emit kind value (skipped + value.length + width) modes
  | none => .fail (.unterminatedComment form) skipped

/-- At two opening braces: a comment, or an expression of one of five sorts. -/
def openCurly (offset : Nat) (cs : List Char) (modes : List OpenMode) : Step :=
  let width := if startsWith ['~'] (cs.drop 2) then 3 else 2
  let rest := cs.drop width
  let inside (closer : Closer) : List OpenMode := ⟨.expression closer, offset⟩ :: modes
  let opener (kind : Kind) (width : Nat) (closer : Closer) : Step :=
    .emit kind (cs.take width) width (inside closer)
  match rest with
  | '\x7b' :: '~' :: _ => opener .openTriple (width + 2) .triple
  | '\x7b' :: _ => opener .openTriple (width + 1) .triple
  | '!' :: '-' :: '-' :: _ =>
      comment .long .curlyComment longCommentEnd? (width + 3) cs modes
  | '!' :: _ => comment .short .curlyComment shortCommentEnd? (width + 1) cs modes
  | '>' :: _ => .fail .partialCall (width + 1)
  | '^' :: _ => .fail .caretSection (width + 1)
  | '#' :: _ => opener .openBlock (width + 1) .double
  | '/' :: _ => opener .openEndBlock (width + 1) .double
  | _ =>
      if isElse rest then opener .openElse (width + 4) .double
      else opener .openCurly width .double

/-- Whether the text starts with two opening braces. -/
def atCurly (cs : List Char) : Bool := startsWith ['\x7b', '\x7b'] cs

/-- A step in content. -/
def contentStep (offset : Nat) (cs : List Char) (modes : List OpenMode) : Step :=
  if startsWith ['\\', '\x7b', '\x7b'] cs then
    let value := escapedRun (cs.drop 1)
    .emit .text value (value.length + 1) modes
  else if atCurly cs then openCurly offset cs modes
  else if startsWith ['<', '!', '-', '-'] cs then
    comment .html .htmlComment (stopAt ['-', '-', '>']) 4 cs modes
  else if startsWith ['<', '/'] cs then
    match endTag? cs with
    | some found => .found .endTag found modes
    | none => .fail .malformedClosingTag 2
  else
    match startTag? cs with
    | some found => .found .startTag found (⟨.tag (String.ofList found.value), offset⟩ :: modes)
    | none => .found .text (.whole (textRun cs)) modes

/-- A step at the value of an attribute. -/
def valueStep (offset : Nat) (cs : List Char) (modes : List OpenMode) : Step :=
  match cs with
  | '"' :: _ => .emit .quoteOpen ['"'] 1 (⟨.quoted '"', offset⟩ :: modes)
  | '\'' :: _ => .emit .quoteOpen ['\''] 1 (⟨.quoted '\'', offset⟩ :: modes)
  | _ =>
      if atCurly cs then openCurly offset cs modes
      else
        match unquotedValue? cs with
        | some found => .found .attributeText found modes
        | none => .fail .missingValue 1

/-- A step between the parts of the opening tag `name`; `outer` are the constructs around it. -/
def tagStep (offset : Nat) (cs : List Char) (name : String) (inside outer : List OpenMode) : Step :=
  if startsWith ['/', '>'] cs then .emit .tagSelfClose ['/', '>'] 2 outer
  else if atCurly cs then openCurly offset cs inside
  else
    match cs with
    | [] => .skip 0
    | '>' :: _ =>
        .emit (if voidElements.contains name then .voidTagEnd else .tagEnd) ['>'] 1 outer
    | '=' :: _ => .emit .equals ['='] 1 inside
    | c :: _ =>
        match blockParams? cs with
        | some found => .found .blockParams found inside
        | none =>
            match attributeName? cs with
            | some found => .found .attributeName found inside
            | none => .fail (.strayInTag c name) 1

/-- A step in a quoted value. -/
def quotedStep (offset : Nat) (cs : List Char) (quote : Char) (inside outer : List OpenMode) :
    Step :=
  if startsWith [quote] cs then .emit .quoteClose [quote] 1 outer
  else if atCurly cs then openCurly offset cs inside
  else .found .attributeText (.whole (quotedRun quote cs)) inside

/-- The words with a meaning of their own. -/
def keywords : List (List Char × Kind) :=
  [("true".toList, .boolean), ("false".toList, .boolean), ("null".toList, .null),
    ("undefined".toList, .undefined)]

/-- A step at a word of an expression. -/
def wordStep? (cs : List Char) : Option (Kind × Found) :=
  (blockParams? cs).map (.blockParams, ·) <|>
  (string? cs).map (.string, ·) <|>
  (hashKey? cs).map (.hashKey, ·) <|>
  (number? cs).map (.number, ·) <|>
  keywords.findSome? (fun (word, kind) => (word? word cs).map (kind, ·)) <|>
  (path? cs).map (.path, ·)

/-- A step in a curly expression. -/
def expressionStep (cs : List Char) (closer : Closer) (inside outer : List OpenMode) : Step :=
  match closer? closer cs with
  | some found => .found (if closer = .triple then .closeTriple else .closeCurly) found outer
  | none =>
      match cs with
      | [] => .skip 0
      | '(' :: _ => .emit .openParen ['('] 1 inside
      | ')' :: _ => .emit .closeParen [')'] 1 inside
      | c :: _ =>
          match wordStep? cs with
          | some (kind, found) => .found kind found inside
          | none => .fail (.strayInMustache c) 1

/-- The step the scanner takes. -/
def State.step (state : State) : Step :=
  let blanks := (state.rest.takeWhile Text.isBlank).length
  match state.modes with
  | [] => contentStep state.offset state.rest []
  | ⟨.quoted quote, start⟩ :: outer =>
      quotedStep state.offset state.rest quote (⟨.quoted quote, start⟩ :: outer) outer
  | ⟨.tag name, start⟩ :: outer =>
      if 0 < blanks then .skip blanks
      else if state.awaitsValue then
        valueStep state.offset state.rest (⟨.tag name, start⟩ :: outer)
      else tagStep state.offset state.rest name (⟨.tag name, start⟩ :: outer) outer
  | ⟨.expression closer, start⟩ :: outer =>
      if 0 < blanks then .skip blanks
      else expressionStep state.rest closer (⟨.expression closer, start⟩ :: outer) outer

end TemplateUsage.Scan
