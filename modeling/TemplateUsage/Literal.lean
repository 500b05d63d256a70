import TemplateUsage.Number.Numeral
import TemplateUsage.Phrase

set_option autoImplicit false

/-!
# Literals

The values that are written out in a template, and how each is read from its
token.
-/

namespace TemplateUsage

/-- A literal value. -/
inductive Literal where
  | string (value : String)
  | number (value : Number)
  | boolean (value : Bool)
  | null
  | undefined
  deriving DecidableEq, Repr, Inhabited

/-- Why a literal is not read. -/
inductive LiteralError where
  /-- The token, here by its name, is not that of a literal. -/
  | notLiteral (name : String)
  | numeral (error : NumeralError)
  deriving DecidableEq, Repr, Inhabited

/-- Message of an error. -/
def LiteralError.message : LiteralError → String
  | .notLiteral name => "not a literal token: " ++ name
  | .numeral error => error.message

namespace Literal

/-- A backslash stands for the character after it; at the end it stands for itself. -/
def unescape : List Char → List Char
  | [] => []
  | '\\' :: c :: rest => c :: unescape rest
  | c :: rest => c :: unescape rest

/-- Reads a literal from the value of its token. -/
def read (sort : Atom) (text : String) : Except LiteralError Literal :=
  match sort with
  | .string => .ok (.string (String.ofList (unescape text.toList)))
  | .number =>
      match Numeral.read text with
      | .ok value => .ok (.number value)
      | .error error => .error (.numeral error)
  | .boolean => .ok (.boolean (text == "true"))
  | .null => .ok .null
  | .undefined => .ok .undefined
  | .path => .error (.notLiteral "PATH")

/-- Equality of values; numbers are compared exactly. -/
def same : Literal → Literal → Bool
  | .string a, .string b => a == b
  | .number a, .number b => a.same b
  | .boolean a, .boolean b => a == b
  | .null, .null => true
  | .undefined, .undefined => true
  | _, _ => false

end Literal

end TemplateUsage
