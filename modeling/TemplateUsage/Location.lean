set_option autoImplicit false

/-!
# Locations in a template

Offsets, lines and columns count characters; lines and columns start at one.
A point whose line and column are zero has an offset only. Points and spans are
measured in a text. A location is what a node or a problem records; its numbers
are kept as given, so that a tree put together by hand may hold any.
-/

namespace TemplateUsage

/-- A place in a text. -/
structure Point where
  offset : Nat
  line : Nat
  column : Nat
  deriving DecidableEq, Repr, Inhabited

/-- The characters from `start` up to, and without, `stop`. -/
structure Span where
  start : Point
  stop : Point
  deriving DecidableEq, Repr, Inhabited

/-- The span from the start of the first to the stop of the second. -/
def Span.cover (first last : Span) : Span := ⟨first.start, last.stop⟩

/-- A part of a named file. -/
structure Location where
  file : String
  line : Int
  column : Int
  /-- Offsets of the first character and of the one after the last. -/
  start : Int
  stop : Int
  endLine : Int
  endColumn : Int
  deriving DecidableEq, Repr, Inhabited

/-- The location of a span. -/
def Span.inFile (file : String) (span : Span) : Location where
  file := file
  line := span.start.line
  column := span.start.column
  start := span.start.offset
  stop := span.stop.offset
  endLine := span.stop.line
  endColumn := span.stop.column

/-- `file:line:column`. -/
def Location.text (location : Location) : String :=
  location.file ++ ":" ++ toString location.line ++ ":" ++ toString location.column

/-- File name of a template that was not read from a file. -/
def unnamedFile : String := "<template>"

end TemplateUsage
