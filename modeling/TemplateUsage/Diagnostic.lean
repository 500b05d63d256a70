import TemplateUsage.Location
import TemplateUsage.Text.Split

set_option autoImplicit false

/-!
# Diagnostics

A diagnostic is shown as a headline, the place it points at, the source line
with carets under it, and advice. What is shown is first laid out as styled
segments, so that colour adds nothing but the marks around a segment.
-/

namespace TemplateUsage

/-- A problem to report. -/
structure Diagnostic where
  message : String
  location : Option Location
  code : Option String
  help : Option String
  deriving DecidableEq, Repr, Inhabited

/-- Source texts by file name. -/
structure Sources where
  entries : List (String × String)
  deriving DecidableEq, Repr, Inhabited

namespace Sources

/-- No source texts. -/
def empty : Sources := ⟨[]⟩

/-- The text of a file. -/
def find? (sources : Sources) (file : String) : Option String := sources.entries.lookup file

/-- Sets the text of a file. -/
def insert (sources : Sources) (file text : String) : Sources :=
  ⟨(file, text) :: sources.entries.filter fun entry => entry.1 != file⟩

/-- Sets the text of a file that has none. -/
def insertNew (sources : Sources) (file text : String) : Sources :=
  if (sources.find? file).isSome then sources else sources.insert file text

/-- Names of the files. -/
def files (sources : Sources) : List String := sources.entries.map Prod.fst

end Sources

/-! ## Styled text -/

/-- Styles of a segment. -/
inductive Style where
  | plain
  | strong
  | alarm
  | frame
  | advice
  deriving DecidableEq, Repr, Inhabited

/-- The marks that switch a style on. -/
def Style.marks : Style → String
  | .plain => ""
  | .strong => "\x1b[1m"
  | .alarm => "\x1b[1m\x1b[31m"
  | .frame => "\x1b[1m\x1b[34m"
  | .advice => "\x1b[1m\x1b[36m"

/-- A piece of text in one style. -/
structure Segment where
  style : Style
  text : String
  deriving DecidableEq, Repr, Inhabited

/-- A segment as shown, in colour or not. -/
def Segment.render (colour : Bool) (segment : Segment) : String :=
  if colour && segment.style != .plain then
    segment.style.marks ++ segment.text ++ "\x1b[0m"
  else segment.text

/-- Lines of segments as shown. -/
def renderLines (colour : Bool) (lines : List (List Segment)) : String :=
  String.intercalate "\n" (lines.map fun line => String.join (line.map (Segment.render colour)))

/-! ## Layout -/

namespace Diagnostic

/-- The given number of spaces. -/
def spaces (n : Nat) : String := String.ofList (List.replicate n ' ')

/-- The headline: the word `error`, the code and the message. -/
def headline (diagnostic : Diagnostic) : List Segment :=
  let code :=
    match diagnostic.code with
    | some code => if code.isEmpty then "" else "[" ++ code ++ "]"
    | none => ""
  [⟨.alarm, "error" ++ code⟩, ⟨.strong, ": " ++ diagnostic.message⟩]

/-- The advice, under a gutter of the given width. -/
def adviceLines (diagnostic : Diagnostic) (gutter : Nat) : List (List Segment) :=
  match diagnostic.help with
  | some help =>
      if help.isEmpty then []
      else [[⟨.advice, spaces (gutter + 1) ++ "= "⟩, ⟨.strong, "help: "⟩, ⟨.plain, help⟩]]
  | none => []

/-- The line a place points into, if the text has it. -/
def sourceLine? (sources : Sources) (location : Location) : Option String :=
  (sources.find? location.file).bind fun text =>
    if 0 < location.line then (Text.lines text)[location.line.toNat - 1]? else none

/-- Carets under the characters of a place: under all of them when it lies on
one line, under the first when it does not. -/
def carets (location : Location) : String :=
  let width :=
    if location.endLine = location.line ∧ location.column < location.endColumn then
      (location.endColumn - location.column).toNat
    else 1
  spaces ((max location.column 1).toNat - 1) ++ String.ofList (List.replicate width '^')

/-- The lines of a diagnostic. -/
def layout (diagnostic : Diagnostic) (sources : Sources) : List (List Segment) :=
  match diagnostic.location with
  | none =>
      [diagnostic.headline, [⟨.frame, " --> "⟩, ⟨.plain, "<unknown location>"⟩]] ++
        diagnostic.adviceLines 1
  | some location =>
      match sourceLine? sources location with
      | none =>
          [diagnostic.headline, [⟨.frame, " --> "⟩, ⟨.plain, location.text⟩]] ++
            diagnostic.adviceLines 1
      | some line =>
          let number := toString location.line
          let gutter := number.length
          let bar : Segment := ⟨.frame, spaces (gutter + 1) ++ "|"⟩
          [diagnostic.headline,
            [⟨.frame, spaces gutter ++ "--> "⟩, ⟨.plain, location.text⟩],
            [bar],
            [⟨.frame, number ++ " | "⟩, ⟨.plain, line⟩],
            [bar, ⟨.plain, " "⟩, ⟨.alarm, carets location⟩]] ++
            diagnostic.adviceLines gutter

/-- A diagnostic as shown. -/
def render (colour : Bool) (sources : Sources) (diagnostic : Diagnostic) : String :=
  renderLines colour (diagnostic.layout sources)

end Diagnostic

end TemplateUsage
