import TemplateUsage.Text.Case
import TemplateUsage.Text.Split

set_option autoImplicit false

/-!
# Paths of files

A path is a root and the names on the way. Empty names and `.` say nothing and
are left out; `..` is kept, since what it leads to depends on the files.
-/

namespace TemplateUsage.CommandLine

/-- Where a path starts. -/
inductive PathRoot where
  | relative
  | absolute
  /-- Exactly two slashes. -/
  | doubled
  deriving DecidableEq, Repr, Inhabited

/-- A path. -/
structure Path where
  root : PathRoot
  names : List String
  deriving DecidableEq, Repr, Inhabited

namespace Path

/-- The root a text starts with. -/
def rootOf (text : List Char) : PathRoot :=
  match (text.takeWhile (· == '/')).length with
  | 0 => .relative
  | 2 => .doubled
  | _ => .absolute

/-- Whether a name says something. -/
def isName (name : List Char) : Bool := !name.isEmpty && name != ['.']

/-- Reads a path. -/
def ofText (text : String) : Path :=
  ⟨rootOf text.toList, ((Text.splitAtChar '/' text.toList).filter isName).map String.ofList⟩

/-- The path as shown. -/
def text (path : Path) : String :=
  let names := String.intercalate "/" path.names
  match path.root with
  | .relative => if path.names.isEmpty then "." else names
  | .absolute => "/" ++ names
  | .doubled => "//" ++ names

/-- The path of something below a folder. -/
def below (path : Path) (names : List String) : Path := { path with names := path.names ++ names }

end Path

/-- Whether a path, as shown, is that of a template. -/
def isTemplatePath (path : String) : Bool :=
  let lowered := Text.lower path.toList
  ".hbs".toList.isSuffixOf lowered || ".handlebars".toList.isSuffixOf lowered

end TemplateUsage.CommandLine
