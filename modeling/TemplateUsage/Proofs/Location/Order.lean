import Mathlib.Data.Prod.Lex
import TemplateUsage.Proofs.Snippet

set_option autoImplicit false

/-!
# Offsets as lines and columns

The line of an offset starts at the beginning of the text or just after a newline, and
from there to the offset there is no other newline (`StartsLine`). The points of a text
are in the order of their offsets (`Point.counted_lt`), and each one is on a line of the
text, at most one column beyond its last character. Main statement:
`Lines.point_counts`, of the points that the binary search finds.
-/

namespace TemplateUsage

/-! ## The start of a line -/

/-- The line that holds an offset starts at `start`: nothing is before it or a newline is,
and there is no newline from there up to the offset. -/
structure StartsLine (text : List Char) (start offset : Nat) : Prop where
  le : start ≤ offset
  after : start = 0 ∨ text[start - 1]? = some '\n'
  within : ∀ i, start ≤ i → i < offset → text[i]? ≠ some '\n'

/-- What is before the last line of a text is nothing or ends with a newline. -/
theorem exists_eq_append_lastLine (text : List Char) :
    ∃ front, text = front ++ lastLine text ∧ (front = [] ∨ front.getLast? = some '\n') := by
  induction text using List.reverseRecOn with
  | nil => exact ⟨[], rfl, .inl rfl⟩
  | append_singleton text c ih =>
      by_cases hc : c = '\n'
      · subst hc
        refine ⟨text ++ ['\n'], ?_, .inr List.getLast?_concat⟩
        rw [lastLine_concat_newline, List.append_nil]
      · obtain ⟨front, htext, hfront⟩ := ih
        refine ⟨front, ?_, hfront⟩
        rw [lastLine_concat text hc, ← List.append_assoc, ← htext]

/-- The last line before an offset starts as many characters before it as it has. -/
theorem startsLine_sub_lastLine {text : List Char} {offset : Nat} (h : offset ≤ text.length) :
    StartsLine text (offset - (lastLine (text.take offset)).length) offset := by
  obtain ⟨front, hsplit, hfront⟩ := exists_eq_append_lastLine (text.take offset)
  have hlength : front.length + (lastLine (text.take offset)).length = offset := by
    rw [← List.length_append, ← hsplit, List.length_take_of_le h]
  have hstart : offset - (lastLine (text.take offset)).length = front.length := by omega
  have htext : text = front ++ (lastLine (text.take offset) ++ text.drop offset) := by
    rw [← List.append_assoc, ← hsplit, List.take_append_drop]
  rw [hstart]
  refine ⟨by omega, ?_, ?_⟩
  · rcases hfront with rfl | hlast
    · exact .inl rfl
    · right
      have hpos : 0 < front.length := List.length_pos_of_mem (List.mem_of_getLast? hlast)
      rw [htext, List.getElem?_append_left (by omega), ← List.getLast?_eq_getElem?, hlast]
  · intro i hi hlt hnewline
    rw [htext, List.getElem?_append_right hi, List.getElem?_append_left (by omega)] at hnewline
    exact newline_not_mem_lastLine _ (List.mem_of_getElem? hnewline)

theorem Point.column_counted {text : List Char} {offset : Nat} (h : offset ≤ text.length) :
    ∃ start, StartsLine text start offset ∧
      (Point.counted text offset).column = offset - start + 1 := by
  refine ⟨_, startsLine_sub_lastLine h, ?_⟩
  have hle : (lastLine (text.take offset)).length ≤ offset := by
    obtain ⟨front, hsplit, -⟩ := exists_eq_append_lastLine (text.take offset)
    have hlength := congrArg List.length hsplit
    rw [List.length_take_of_le h, List.length_append] at hlength
    omega
  show (lastLine (text.take offset)).length + 1 = _
  omega

/-! ## The order of points -/

/-- A later offset is on a later line or, on the same line, in a later column. -/
theorem Point.counted_lt {text : List Char} {offset later : Nat} (hlt : offset < later)
    (hlater : later ≤ text.length) :
    toLex ((Point.counted text offset).line, (Point.counted text offset).column) <
      toLex ((Point.counted text later).line, (Point.counted text later).column) := by
  have htake : text.take later =
      text.take offset ++ (text.drop offset).take (later - offset) := by
    rw [← List.take_add, Nat.add_sub_cancel' hlt.le]
  have hlength : ((text.drop offset).take (later - offset)).length = later - offset := by
    rw [List.length_take, List.length_drop]
    omega
  rw [Prod.Lex.toLex_lt_toLex]
  simp only [Point.counted, htake, List.count_append, lastLine_append]
  by_cases hnewline : '\n' ∈ (text.drop offset).take (later - offset)
  · left
    have := List.count_pos_iff.2 hnewline
    omega
  · right
    rw [if_neg hnewline, List.count_eq_zero.2 hnewline, List.length_append, hlength]
    omega

/-! ## The line of a point -/

/-- The line of a counted point is there, and the point is at most one column beyond it. -/
theorem Text.exists_line_counted (source : String) (offset : Nat) :
    ∃ line, (Text.lines source)[(Point.counted source.toList offset).line - 1]? = some line ∧
      (Point.counted source.toList offset).column ≤ line.length + 1 := by
  refine ⟨_, Text.getElem?_lines source offset, ?_⟩
  show (lastLine _).length + 1 ≤ _
  rw [String.length_ofList, List.length_append]
  omega

theorem Text.line_counted_le (source : String) (offset : Nat) :
    (Point.counted source.toList offset).line ≤ (Text.lines source).length := by
  rw [Text.length_lines]
  have hcount := (List.take_sublist offset source.toList).count_le '\n'
  exact Nat.add_le_add_right hcount 1

/-- The point found for an offset of a text. Its line is one more than the newlines before
the offset, and its column counts from the start of that line. A later offset has a later
point. The text has the line, and the column is at most one beyond its end. -/
theorem Lines.point_counts (source : String) {offset : Nat} (h : offset ≤ source.length) :
    let point := (Lines.ofText source.toList).point offset
    point.offset = offset ∧
      point.line = 1 + (source.toList.take offset).count '\n' ∧
      (∃ start, StartsLine source.toList start offset ∧ point.column = offset - start + 1) ∧
      (∀ later, offset < later → later ≤ source.length →
        toLex (point.line, point.column) <
          toLex (((Lines.ofText source.toList).point later).line,
            ((Lines.ofText source.toList).point later).column)) ∧
      point.line ≤ (Text.lines source).length ∧
      ∃ line, (Text.lines source)[point.line - 1]? = some line ∧
        point.column ≤ line.length + 1 := by
  rw [← String.length_toList] at h
  dsimp only
  rw [Lines.point_ofText h]
  refine ⟨rfl, Nat.add_comm _ _, Point.column_counted h, fun later hlt hlater => ?_,
    Text.line_counted_le source offset, Text.exists_line_counted source offset⟩
  rw [← String.length_toList] at hlater
  rw [Lines.point_ofText hlater]
  exact Point.counted_lt hlt hlater

/-- A text of two lines, the second one empty. -/
def brokenLine : String := "ab\n"

/-- On the newline the point is one column beyond the line; just after it a line starts. -/
theorem Lines.point_counts_brokenLine :
    (Lines.ofText brokenLine.toList).point 2 = ⟨2, 1, 3⟩ ∧
      (Lines.ofText brokenLine.toList).point 3 = ⟨3, 2, 1⟩ ∧
      toLex (1, 3) < toLex (2, 1) ∧ StartsLine brokenLine.toList 3 3 ∧
      (Text.lines brokenLine).length = 2 := by
  have htwo : (Lines.ofText brokenLine.toList).point 2 = ⟨2, 1, 3⟩ := by
    rw [Lines.point_ofText (by decide)]
    decide
  have hthree : (Lines.ofText brokenLine.toList).point 3 = ⟨3, 2, 1⟩ := by
    rw [Lines.point_ofText (by decide)]
    decide
  have hbefore : 2 ≤ brokenLine.length := by decide
  have hend : 3 ≤ brokenLine.length := by decide
  obtain ⟨-, -, -, hlater, -, -⟩ := Lines.point_counts brokenLine hbefore
  have hlt := hlater 3 (by decide) hend
  obtain ⟨-, -, ⟨start, hstart, hcolumn⟩, -⟩ := Lines.point_counts brokenLine hend
  rw [htwo, hthree] at hlt
  rw [hthree] at hcolumn
  have hle := hstart.le
  obtain rfl : start = 3 := by
    simp only at hcolumn
    omega
  exact ⟨htwo, hthree, hlt, hstart, by decide⟩

end TemplateUsage
