set_option autoImplicit false

/-!
# Modes of the scanner

A blank is text between tags and a separator inside them, and the same
character opens different things in different places. The scanner therefore
keeps a stack of open constructs, innermost first; with none open it reads
content.
-/

namespace TemplateUsage

/-- What closes a curly expression. -/
inductive Closer where
  | double
  | triple
  deriving DecidableEq, Repr, Inhabited

/-- The closing text. -/
def Closer.text : Closer → String
  | .double => "\x7d\x7d"
  | .triple => "\x7d\x7d\x7d"

/-- A construct the scanner is inside of. -/
inductive Mode where
  /-- The opening tag with this name. -/
  | tag (name : String)
  /-- A quoted attribute value that ends at this quote. -/
  | quoted (quote : Char)
  /-- A curly expression. -/
  | expression (closer : Closer)
  deriving DecidableEq, Repr, Inhabited

/-- An open construct and the offset it was opened at. -/
structure OpenMode where
  mode : Mode
  start : Nat
  deriving DecidableEq, Repr, Inhabited

/-- Ways to write a comment. -/
inductive CommentForm where
  | html
  | long
  | short
  deriving DecidableEq, Repr, Inhabited

/-- What ends a comment. -/
def CommentForm.closer : CommentForm → String
  | .html => "-->"
  | .long => "--\x7d\x7d"
  | .short => "\x7d\x7d"

end TemplateUsage
