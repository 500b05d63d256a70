import TemplateUsage.Location

set_option autoImplicit false

/-!
# Lines of a text

The offsets at which the lines of a text start, and the line and column of an
offset, found by binary search. Only the newline character ends a line.
-/

namespace TemplateUsage

/-- Offsets just after each newline of a text that stands at the given offset. -/
def lineStartsAfter (offset : Nat) : List Char → List Nat
  | [] => []
  | c :: rest =>
      if c = '\n' then (offset + 1) :: lineStartsAfter (offset + 1) rest
      else lineStartsAfter (offset + 1) rest

/-- Line starts of a text, in increasing order. -/
structure Lines where
  starts : Array Nat

/-- Line starts of a text: its beginning and the place after each newline. -/
def Lines.ofText (text : List Char) : Lines := ⟨(0 :: lineStartsAfter 0 text).toArray⟩

/-- Between `low` and `high`, the first index whose start lies beyond the offset. -/
def Lines.search (lines : Lines) (offset low high : Nat) : Nat :=
  if low < high then
    let middle := (low + high) / 2
    if offset < lines.starts.getD middle 0 then lines.search offset low middle
    else lines.search offset (middle + 1) high
  else low
termination_by high - low

/-- The point of an offset: the last line that starts at or before it. -/
def Lines.point (lines : Lines) (offset : Nat) : Point :=
  let index := lines.search offset 0 lines.starts.size - 1
  ⟨offset, index + 1, offset - lines.starts.getD index 0 + 1⟩

/-- The span between two offsets. -/
def Lines.span (lines : Lines) (start stop : Nat) : Span :=
  ⟨lines.point start, lines.point stop⟩

end TemplateUsage
