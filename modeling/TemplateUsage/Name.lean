import TemplateUsage.Text.Case
import TemplateUsage.Text.Split

set_option autoImplicit false

/-!
# Names of components

A component is written as a tag, `Foo::BarBaz`, and known by a token,
`foo/bar-baz`. Main definitions: `ofTag` and `toTag` convert between the two,
`headSegment` gives the part of a path that a block parameter can bind.
-/

namespace TemplateUsage.Name

/-- Puts a hyphen before an ASCII capital. -/
def hyphenate (c : Char) : List Char := if c.isUpper then ['-', c] else [c]

/-- A hyphen before every capital but a leading one, then lowercase. -/
def dasherizeChars : List Char → List Char
  | [] => []
  | c :: rest => Text.lower (c :: rest.flatMap hyphenate)

/-- `MyComponent` becomes `my-component`. -/
def dasherize (segment : String) : String := String.ofList (dasherizeChars segment.toList)

/-- The token of a tag name: `Foo::BarBaz` becomes `foo/bar-baz`. -/
def ofTag (tag : String) : String :=
  String.ofList (Text.join ['/'] ((Text.splitAtPair ':' tag.toList).map dasherizeChars))

/-- A word with its first character in uppercase. -/
def capitalize : List Char → List Char
  | [] => []
  | c :: rest => Text.upperChar c ++ rest

/-- A segment of a token with its words capitalised and run together. -/
def camelize (segment : List Char) : List Char :=
  (Text.splitAtChar '-' segment).flatMap capitalize

/-- The tag name of a token: `foo/bar-baz` becomes `Foo::BarBaz`. -/
def toTag (token : String) : String :=
  String.ofList (Text.join [':', ':'] ((Text.splitAtChar '/' token.toList).map camelize))

/-- Where a path is written. -/
inductive Context where
  /-- As the name of a tag. -/
  | tagName
  /-- Between curly braces or parentheses. -/
  | curlyPath
  deriving DecidableEq, Repr, Inhabited

/-- The first segment of a path: up to the first `.` or `/`, and in a tag name up to `::`. -/
def headSegment (path : String) (context : Context) : String :=
  let whole :=
    match context with
    | .tagName => (Text.splitAtPair ':' path.toList).headD []
    | .curlyPath => path.toList
  String.ofList (whole.takeWhile fun c => c != '.' && c != '/')

end TemplateUsage.Name
