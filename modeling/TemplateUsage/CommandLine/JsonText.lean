import TemplateUsage.Text.Quoted

set_option autoImplicit false

/-!
# JSON text

Values written in ASCII, two blanks to a level. A character outside the
printable ASCII range is written by its UTF-16 units.
-/

namespace TemplateUsage.CommandLine.JsonText

/-- A UTF-16 unit written out. -/
def escapedUnit (unit : Nat) : List Char := '\\' :: 'u' :: Text.hexDigits 4 unit

/-- A character inside a string. -/
def escaped (c : Char) : List Char :=
  if c == '"' then ['\\', '"']
  else if c == '\\' then ['\\', '\\']
  else if c == '\n' then ['\\', 'n']
  else if c == '\r' then ['\\', 'r']
  else if c == '\t' then ['\\', 't']
  else if c.toNat = 0x0C then ['\\', 'f']
  else if c.toNat = 0x08 then ['\\', 'b']
  else if 0x20 ≤ c.toNat && c.toNat < 0x7F then [c]
  else if c.toNat < 0x10000 then escapedUnit c.toNat
  else
    let code := c.toNat - 0x10000
    escapedUnit (0xD800 + code / 0x400) ++ escapedUnit (0xDC00 + code % 0x400)

/-- A string. -/
def string (s : String) : String :=
  "\"" ++ String.ofList (s.toList.flatMap escaped) ++ "\""

/-- The start of a line at a level. -/
def lineStart (level : Nat) : String := "\n" ++ String.ofList (List.replicate (2 * level) ' ')

/-- Members between brackets, each on a line of its own; `level` is that of the brackets. -/
def bracketed (left right : String) (level : Nat) (members : List String) : String :=
  if members.isEmpty then left ++ right
  else
    left ++ lineStart (level + 1) ++
      String.intercalate ("," ++ lineStart (level + 1)) members ++ lineStart level ++ right

/-- An array. -/
def array (level : Nat) (members : List String) : String := bracketed "[" "]" level members

/-- An object. -/
def object (level : Nat) (members : List (String × String)) : String :=
  bracketed "\x7b" "\x7d" level (members.map fun (key, value) => string key ++ ": " ++ value)

end TemplateUsage.CommandLine.JsonText
