import TemplateUsage.Text.Blank
import TemplateUsage.Text.Digit
import TemplateUsage.Scan.Mode

set_option autoImplicit false

/-!
# Patterns of the tokens

Each pattern looks at the front of the remaining text and, if it applies, gives
the value of the token found there and the number of characters it covers.
-/

namespace TemplateUsage.Scan

/-- A token's value and the number of characters the token covers. -/
structure Found where
  value : List Char
  width : Nat
  deriving DecidableEq, Repr

/-- The text whose value is what it covers. -/
def Found.whole (value : List Char) : Found := ⟨value, value.length⟩

/-- Whether a text starts with the given characters. -/
def startsWith (start cs : List Char) : Bool := start.isPrefixOf cs

/-- The text before the first suffix that `stop` accepts, with the width it accepts there. -/
def breakAt (stop : List Char → Option Nat) : List Char → Option (List Char × Nat)
  | [] => (stop []).map fun width => ([], width)
  | c :: rest =>
      match stop (c :: rest) with
      | some width => some ([], width)
      | none => (breakAt stop rest).map fun found => (c :: found.1, found.2)

/-- Accepts a fixed text. -/
def stopAt (stop cs : List Char) : Option Nat :=
  if startsWith stop cs then some stop.length else none

/-! ## Content -/

/-- Characters a tag name starts with. -/
def startsTagName (c : Char) : Bool :=
  c.isAlpha || c == '_' || c == '@' || c == ':'

/-- Characters a tag name goes on with. -/
def isTagNameChar (c : Char) : Bool :=
  !(Text.isBlank c || ['/', '>', '\x7b', '\x7d', '"', '\'', '=', '<'].contains c)

/-- `<` and a tag name. -/
def startTag? : List Char → Option Found
  | '<' :: c :: rest =>
      if startsTagName c then
        let name := c :: rest.takeWhile isTagNameChar
        some ⟨name, name.length + 1⟩
      else none
  | _ => none

/-- Characters of the name in a closing tag. -/
def isEndNameChar (c : Char) : Bool := !(Text.isBlank c || c == '>')

/-- `</`, a name and `>`, with blanks around the name. -/
def endTag? : List Char → Option Found
  | '<' :: '/' :: rest =>
      let before := rest.takeWhile Text.isBlank
      let rest := rest.dropWhile Text.isBlank
      let name := rest.takeWhile isEndNameChar
      let rest := rest.dropWhile isEndNameChar
      let after := rest.takeWhile Text.isBlank
      match rest.dropWhile Text.isBlank with
      | '>' :: _ =>
          if name.isEmpty then none
          else some ⟨name, 2 + before.length + name.length + after.length + 1⟩
      | _ => none
  | _ => none

/-- Whether the text after a `<` makes it the start of a tag or a comment. -/
def opensMarkup (rest : List Char) : Bool :=
  match rest with
  | [] => false
  | c :: _ => startsTagName c || c == '/' || startsWith ['!', '-', '-'] rest

/-- The longest text at the front. It stops before markup and before an
expression; of the backslashes before an expression, two or more are text and a
single one is left to escape it. -/
def textRun : List Char → List Char
  | [] => []
  | '\\' :: '\\' :: '\x7b' :: '\x7b' :: _ => ['\\', '\\']
  | '\\' :: '\x7b' :: '\x7b' :: _ => []
  | '\x7b' :: '\x7b' :: _ => []
  | c :: rest => if c = '<' && opensMarkup rest then [] else c :: textRun rest

/-- The text an escaped expression stands for: all of it up to its closing
braces, or only its opening braces when it is not closed. -/
def escapedRun : List Char → List Char
  | a :: b :: rest =>
      match breakAt (stopAt ['\x7d', '\x7d']) rest with
      | some (body, _) => a :: b :: body ++ ['\x7d', '\x7d']
      | none => [a, b]
  | cs => cs

/-! ## Comments -/

/-- The end of a long comment, with an optional mark before the braces. -/
def longCommentEnd? : List Char → Option Nat
  | '-' :: '-' :: '\x7d' :: '\x7d' :: _ => some 4
  | '-' :: '-' :: '~' :: '\x7d' :: '\x7d' :: _ => some 5
  | _ => none

/-- The end of a short comment, with an optional mark before the braces. -/
def shortCommentEnd? : List Char → Option Nat
  | '\x7d' :: '\x7d' :: _ => some 2
  | '~' :: '\x7d' :: '\x7d' :: _ => some 3
  | _ => none

/-! ## Opening tags -/

/-- Characters of an attribute name. -/
def isAttributeNameChar (c : Char) : Bool :=
  !(Text.isBlank c || ['"', '\'', '>', '/', '=', '\x7b', '\x7d'].contains c)

/-- An attribute name. -/
def attributeName? (cs : List Char) : Option Found :=
  match cs.takeWhile isAttributeNameChar with
  | [] => none
  | name => some (.whole name)

/-- Characters of a value without quotes, the slash apart. -/
def isUnquotedChar (c : Char) : Bool :=
  !(Text.isBlank c || ['>', '"', '\'', '=', '<', '`', '/', '\x7b'].contains c)

/-- The longest value without quotes; a slash belongs to it unless it closes the tag. -/
def unquotedRun : List Char → List Char
  | [] => []
  | c :: rest =>
      if c = '/' then
        if rest.head? = some '>' then [] else c :: unquotedRun rest
      else if isUnquotedChar c then c :: unquotedRun rest
      else []

/-- A value without quotes. -/
def unquotedValue? (cs : List Char) : Option Found :=
  match unquotedRun cs with
  | [] => none
  | value => some (.whole value)

/-- The longest text in a value quoted by `quote`. -/
def quotedRun (quote : Char) : List Char → List Char
  | [] => []
  | c :: rest =>
      if c = quote || (c = '\x7b' && rest.head? = some '\x7b') then []
      else c :: quotedRun quote rest

/-- `as`, blanks, and names between bars. -/
def blockParams? : List Char → Option Found
  | 'a' :: 's' :: rest =>
      let blanks := rest.takeWhile Text.isBlank
      match rest.dropWhile Text.isBlank with
      | '|' :: rest =>
          if blanks.isEmpty then none
          else
            let names := rest.takeWhile (· != '|')
            match rest.dropWhile (· != '|') with
            | '|' :: _ => some ⟨names, 2 + blanks.length + 1 + names.length + 1⟩
            | _ => none
      | _ => none
  | _ => none

/-! ## Curly expressions -/

/-- The closing braces, with an optional mark. -/
def closer? : Closer → List Char → Option Found
  | .double, '~' :: '\x7d' :: '\x7d' :: _ => some (.whole ['~', '\x7d', '\x7d'])
  | .double, '\x7d' :: '\x7d' :: _ => some (.whole ['\x7d', '\x7d'])
  | .triple, '~' :: '\x7d' :: '\x7d' :: '\x7d' :: _ => some (.whole ['~', '\x7d', '\x7d', '\x7d'])
  | .triple, '\x7d' :: '\x7d' :: '\x7d' :: _ => some (.whole ['\x7d', '\x7d', '\x7d'])
  | .triple, '\x7d' :: '~' :: '\x7d' :: '\x7d' :: _ => some (.whole ['\x7d', '~', '\x7d', '\x7d'])
  | _, _ => none

/-- The text before the closing quote; a backslash takes the next character with it. -/
def stringBody? (quote : Char) : List Char → Option (List Char)
  | [] => none
  | '\\' :: c :: rest => (stringBody? quote rest).map fun body => '\\' :: c :: body
  | c :: rest =>
      if c = quote then some []
      else if c = '\\' then none
      else (stringBody? quote rest).map (c :: ·)

/-- A string in either quotes; its value is the text between them as written. -/
def string? : List Char → Option Found
  | c :: rest =>
      if c = '"' || c = '\'' then
        (stringBody? c rest).map fun body => ⟨body, body.length + 2⟩
      else none
  | [] => none

/-- Characters of a path. -/
def isPathChar (c : Char) : Bool :=
  !(Text.isBlank c || ['(', ')', '\x7b', '\x7d', '|', '=', '~', '"', '\''].contains c)

/-- Characters of a key. -/
def isKeyChar (c : Char) : Bool :=
  isPathChar c && !(['!', '#', '^'].contains c)

/-- A key, blanks, and a single equals sign. -/
def hashKey? (cs : List Char) : Option Found :=
  let key := cs.takeWhile isKeyChar
  let rest := cs.dropWhile isKeyChar
  let blanks := rest.takeWhile Text.isBlank
  match rest.dropWhile Text.isBlank with
  | '=' :: next =>
      if key.isEmpty || next.head? = some '=' then none
      else some ⟨key, key.length + blanks.length + 1⟩
  | _ => none

/-- Whether a number or a keyword may end before the remaining text. -/
def endsWord (rest : List Char) : Bool :=
  match rest with
  | [] => true
  | c :: _ => Text.isBlank c || ['(', ')', '\x7d', '~'].contains c

/-- Digits with an optional fraction, at the front of a text. -/
def decimalRun (cs : List Char) : List Char :=
  let whole := cs.takeWhile Text.isDigit
  match cs.dropWhile Text.isDigit with
  | '.' :: rest =>
      let fraction := rest.takeWhile Text.isDigit
      if whole.isEmpty || fraction.isEmpty then whole else whole ++ '.' :: fraction
  | _ => whole

/-- An optional minus sign. -/
def signRun (cs : List Char) : List Char := cs.head?.toList.filter (· == '-')

/-- Digits with an optional minus sign and an optional fraction, as a whole word. -/
def number? (cs : List Char) : Option Found :=
  let sign := signRun cs
  let digits := decimalRun (cs.drop sign.length)
  let value := sign ++ digits
  if !digits.isEmpty && endsWord (cs.drop value.length) then some (.whole value) else none

/-- A fixed word, as a whole word. -/
def word? (word cs : List Char) : Option Found :=
  if startsWith word cs && endsWord (cs.drop word.length) then some (.whole word) else none

/-- A path. -/
def path? (cs : List Char) : Option Found :=
  match cs.takeWhile isPathChar with
  | [] => none
  | path => some (.whole path)

/-- `else` before a blank, a mark or a brace. -/
def isElse (cs : List Char) : Bool :=
  match cs with
  | 'e' :: 'l' :: 's' :: 'e' :: c :: _ => Text.isBlank c || c == '~' || c == '\x7d'
  | _ => false

end TemplateUsage.Scan
