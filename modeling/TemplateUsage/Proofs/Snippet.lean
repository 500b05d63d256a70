import Mathlib.Data.List.Basic
import TemplateUsage.Diagnostic
import TemplateUsage.Proofs.Location.Counting
import TemplateUsage.Proofs.Scan.Lossless

set_option autoImplicit false

/-!
# What a diagnostic shows of a text

A diagnostic shows a line of the text under its number and carets below it
(`snippet`). The line of a counted point is the one it stands on
(`Text.getElem?_lines`), and the carets of a span between counted points stand under
its characters when these are on one line and under its first character when they
are not. Main statements: `Diagnostic.snippet_isInfix`, `Diagnostic.carets_onLine`,
`Diagnostic.carets_overLines`.
-/

namespace TemplateUsage

/-! ## Lines -/

theorem newline_not_mem_lastLine (text : List Char) : '\n' ∉ lastLine text := by
  rw [lastLine, List.mem_reverse]
  intro hmem
  simpa using List.mem_takeWhile_imp hmem

theorem newline_not_mem_takeWhile (text : List Char) : '\n' ∉ text.takeWhile (· != '\n') := by
  intro hmem
  simpa using List.mem_takeWhile_imp hmem

/-- The last line of a text that starts with a character of that line. -/
theorem lastLine_cons (c : Char) (text : List Char) :
    lastLine (c :: text) =
      if '\n' ∈ text then lastLine text else if c = '\n' then text else c :: text := by
  have happend := lastLine_append [c] text
  rw [List.singleton_append] at happend
  rw [happend]
  by_cases hc : c = '\n'
  · subst hc
    rfl
  · have hsingle : lastLine [c] = [c] := lastLine_concat [] hc
    rw [hsingle, if_neg hc]
    rfl

namespace Text

theorem splitAtChar_eq_splitOn (separator : Char) (cs : List Char) :
    splitAtChar separator cs = cs.splitOn separator := by
  induction cs with
  | nil => rfl
  | cons c rest ih =>
      rw [splitAtChar, List.splitOn_cons_eq_if_modifyHead, ih]
      obtain ⟨piece, pieces, hpieces⟩ :=
        List.exists_cons_of_ne_nil (List.splitOn_ne_nil separator rest)
      rw [hpieces]
      simp [consPiece]

theorem lines_eq (s : String) : lines s = (s.toList.splitOn '\n').map String.ofList := by
  rw [lines, splitAtChar_eq_splitOn]

theorem lines_of_not_mem {s : String} (h : '\n' ∉ s.toList) : lines s = [s] := by
  rw [lines_eq, List.splitOn_eq_singleton h, List.map_singleton, String.ofList_toList]

theorem lines_append (front back : String) :
    lines (front ++ "\n" ++ back) = lines front ++ lines back := by
  have htoList : (front ++ "\n" ++ back).toList = front.toList ++ '\n' :: back.toList := by simp
  rw [lines_eq, htoList, List.splitOn_append_cons_self, List.map_append, lines_eq, lines_eq]

/-- Texts put under each other have their lines one after the other. -/
theorem lines_intercalate {pieces : List String} (h : pieces ≠ []) :
    lines ("\n".intercalate pieces) = pieces.flatMap lines := by
  induction pieces with
  | nil => exact absurd rfl h
  | cons piece rest ih =>
      cases rest with
      | nil => simp
      | cons next others =>
          rw [String.intercalate_cons_cons, lines_append, ih (List.cons_ne_nil _ _)]
          rfl

theorem length_splitOn (cs : List Char) : (cs.splitOn '\n').length = cs.count '\n' + 1 := by
  induction cs with
  | nil => rfl
  | cons c rest ih =>
      rw [List.splitOn_cons_eq_if_modifyHead, List.count_cons]
      split
      · rw [List.length_cons, ih]
      · rw [List.length_modifyHead, ih, Nat.add_zero]

theorem length_lines (s : String) : (lines s).length = s.toList.count '\n' + 1 := by
  rw [lines_eq, List.length_map, length_splitOn]

theorem head?_splitOn (cs : List Char) :
    (cs.splitOn '\n').head? = some (cs.takeWhile (· != '\n')) := by
  induction cs with
  | nil => rfl
  | cons c rest ih =>
      rw [List.splitOn_cons_eq_if_modifyHead]
      split
      · rename_i hc
        rw [beq_iff_eq] at hc
        subst hc
        rfl
      · rename_i hc
        rw [List.head?_modifyHead, ih, List.takeWhile_cons_of_pos (by simpa using hc)]
        rfl

/-- After as many newlines as the front has stands the line that goes on from its last
line. -/
theorem getElem?_splitOn (front back : List Char) :
    ((front ++ back).splitOn '\n')[front.count '\n']? =
      some (lastLine front ++ back.takeWhile (· != '\n')) := by
  induction front with
  | nil => simpa [List.head?_eq_getElem?] using head?_splitOn back
  | cons c rest ih =>
      rw [List.cons_append, List.splitOn_cons_eq_if_modifyHead, List.count_cons, lastLine_cons]
      by_cases hmem : '\n' ∈ rest
      · -- the line is not the first one, so the character before it does not matter
        obtain ⟨count, hcount⟩ := Nat.exists_eq_add_one.2 (List.count_pos_iff.2 hmem)
        rw [hcount] at ih ⊢
        rw [if_pos hmem]
        split
        · exact ih
        · rw [Nat.add_zero, List.getElem?_modifyHead_succ]
          exact ih
      · -- the line is the first one, or the second if the character is a newline
        have hcount := List.count_eq_zero.2 hmem
        have hline : lastLine rest = rest := by simpa [hmem] using lastLine_append [] rest
        rw [hcount, hline] at ih
        rw [hcount, if_neg hmem]
        by_cases hc : c = '\n'
        · subst hc
          exact ih
        · have hbeq : (c == '\n') = false := beq_eq_false_iff_ne.2 hc
          rw [hbeq, if_neg hc]
          show (List.modifyHead (List.cons c) _)[0]? = _
          rw [List.getElem?_modifyHead_zero, ih]
          rfl

/-- The line a counted point stands on. -/
theorem getElem?_lines (source : String) (offset : Nat) :
    (lines source)[(Point.counted source.toList offset).line - 1]? =
      some (String.ofList (lastLine (source.toList.take offset) ++
        (source.toList.drop offset).takeWhile (· != '\n'))) := by
  have hline := getElem?_splitOn (source.toList.take offset) (source.toList.drop offset)
  rw [List.take_append_drop] at hline
  rw [lines_eq, List.getElem?_map, Point.counted, Nat.add_sub_cancel, hline]
  rfl

end Text

/-! ## Numbered lines and carets -/

/-- As many copies of a character as the text is long. -/
def fill (c : Char) (text : List Char) : String := String.ofList (List.replicate text.length c)

/-- A numbered line and what stands under it, column by column: carets under the part
`marked`, or one caret after `left` when there is nothing to mark. -/
def snippet (number : Nat) (left marked right : List Char) : List String :=
  [toString number ++ " | " ++ String.ofList (left ++ marked ++ right),
    fill ' ' (toString number).toList ++ " | " ++ fill ' ' left ++
      if marked = [] then "^" else fill '^' marked]

/-- A number is written with digits alone. -/
theorem not_mem_toString {c : Char} (hc : c.isDigit = false) (n : Nat) :
    c ∉ (toString n).toList := by
  intro hmem
  have hdigits : c ∈ Nat.toDigits 10 n := by
    have htoList : (toString n).toList = Nat.toDigits 10 n := String.toList_ofList
    rwa [htoList] at hmem
  exact absurd (Nat.isDigit_of_mem_toDigits (by decide) (by decide) hdigits) (by simp [hc])

theorem newline_not_mem_fill {c : Char} (hc : c ≠ '\n') (text : List Char) :
    '\n' ∉ (fill c text).toList := by
  rw [fill, String.toList_ofList]
  intro hmem
  exact hc (List.eq_of_mem_replicate hmem).symm

/-- No line of a snippet has a newline in it. -/
theorem newline_not_mem_snippet (number : Nat) {left marked right : List Char}
    (h : '\n' ∉ left ++ marked ++ right) :
    ∀ line ∈ snippet number left marked right, '\n' ∉ line.toList := by
  have hblank : ∀ text, '\n' ∉ (fill ' ' text).toList := newline_not_mem_fill (by decide)
  have hcarets : '\n' ∉ (if marked = [] then "^" else fill '^' marked).toList := by
    split
    · decide
    · exact newline_not_mem_fill (by decide) marked
  intro line hmem
  simp only [snippet, List.mem_cons, List.not_mem_nil, or_false] at hmem
  rcases hmem with rfl | rfl
  · simp only [String.toList_append, String.toList_ofList, List.mem_append, not_or] at h ⊢
    exact ⟨⟨not_mem_toString (by decide) number, by decide⟩, h⟩
  · simp only [String.toList_append, List.mem_append, not_or]
    exact ⟨⟨⟨hblank _, by decide⟩, hblank left⟩, hcarets⟩

/-- Lines of segments are shown under each other. -/
theorem lines_renderLines (colour : Bool) {rows : List (List Segment)} (h : rows ≠ []) :
    Text.lines (renderLines colour rows) =
      rows.flatMap fun row => Text.lines (String.join (row.map (Segment.render colour))) := by
  rw [renderLines, Text.lines_intercalate (by simpa using h), List.flatMap_map]

namespace Diagnostic

/-- With a line to show, its number and the carets stand among what is laid out. -/
theorem exists_layout_eq {diagnostic : Diagnostic} {sources : Sources} {location : Location}
    {line : String} (hlocation : diagnostic.location = some location)
    (hline : sourceLine? sources location = some line) :
    ∃ front back, diagnostic.layout sources = front ++
      [[⟨.frame, toString location.line ++ " | "⟩, ⟨.plain, line⟩],
        [⟨.frame, spaces ((toString location.line).length + 1) ++ "|"⟩, ⟨.plain, " "⟩,
          ⟨.alarm, carets location⟩]] ++ back := by
  rw [layout, hlocation]
  dsimp only
  rw [hline]
  exact ⟨[_, _, _], _, rfl⟩

/-- The line a diagnostic points into and its carets are lines of what is shown. -/
theorem snippet_isInfix {diagnostic : Diagnostic} {sources : Sources} {location : Location}
    (hlocation : diagnostic.location = some location) {number : Nat}
    (hnumber : location.line = number) {left marked right : List Char}
    (hline : sourceLine? sources location = some (String.ofList (left ++ marked ++ right)))
    (hnewline : '\n' ∉ left ++ marked ++ right)
    (hcarets : carets location =
      fill ' ' left ++ if marked = [] then "^" else fill '^' marked) :
    snippet number left marked right <:+: Text.lines (diagnostic.render false sources) := by
  obtain ⟨front, back, hrows⟩ := exists_layout_eq hlocation hline
  have hdigits : toString location.line = toString number := by
    rw [hnumber]
    rfl
  -- under the number of the line stand as many blanks, then the same bar
  have hgutter : spaces ((toString number).length + 1) ++ "|" ++ " " =
      fill ' ' (toString number).toList ++ " | " := by
    rw [fill, String.length_toList, spaces, List.replicate_succ', String.ofList_append,
      String.append_assoc, String.append_assoc]
    rfl
  have hlines := newline_not_mem_snippet number hnewline
  simp only [snippet, List.forall_mem_cons] at hlines
  rw [render, lines_renderLines false (by rw [hrows]; simp), hrows, List.flatMap_append,
    List.flatMap_append]
  refine ⟨_, _, congrArg (· ++ _) (congrArg (_ ++ ·) ?_)⟩
  simp only [List.flatMap_cons, List.flatMap_nil, List.map_cons, List.map_nil, String.join_cons,
    String.join_nil, String.append_empty, Segment.render, Bool.false_and, Bool.false_eq_true,
    if_false, List.append_nil]
  rw [hdigits, hcarets, ← String.append_assoc, hgutter, ← String.append_assoc,
    Text.lines_of_not_mem hlines.1, Text.lines_of_not_mem hlines.2.1]
  rfl

section Carets

variable {location : Location} {left marked : List Char}

theorem carets_eq_fill (hcolumn : location.column = left.length + 1) :
    carets location = fill ' ' left ++ String.ofList (List.replicate
      (if location.endLine = location.line ∧ location.column < location.endColumn then
        (location.endColumn - location.column).toNat else 1) '^') := by
  have hleft : (max location.column 1).toNat - 1 = left.length := by omega
  rw [carets, hleft]
  rfl

/-- On one line the carets stand under all characters of a place. -/
theorem carets_onLine (hcolumn : location.column = left.length + 1)
    (hline : location.endLine = location.line)
    (hstop : location.endColumn = location.column + marked.length) (hmarked : marked ≠ []) :
    carets location = fill ' ' left ++ fill '^' marked := by
  have hpos := List.length_pos_iff.2 hmarked
  have hwidth : (location.endColumn - location.column).toNat = marked.length := by omega
  rw [carets_eq_fill hcolumn, if_pos ⟨hline, by omega⟩, hwidth]
  rfl

/-- A place that does not end on its line has one caret. -/
theorem carets_overLines (hcolumn : location.column = left.length + 1)
    (hline : location.endLine ≠ location.line) : carets location = fill ' ' left ++ "^" := by
  rw [carets_eq_fill hcolumn, if_neg fun h => hline h.1]
  rfl

end Carets

end Diagnostic

/-! ## Points of a span -/

section Counted

variable {text : List Char} {start stop : Nat}

theorem take_eq_append_slice (h : start ≤ stop) :
    text.take stop = text.take start ++ Scan.slice text start stop := by
  obtain ⟨width, rfl⟩ := Nat.exists_eq_add_of_le h
  rw [List.take_add, Scan.slice, Nat.add_sub_cancel_left]

theorem drop_eq_slice_append (h : start ≤ stop) :
    text.drop start = Scan.slice text start stop ++ text.drop stop := by
  obtain ⟨width, rfl⟩ := Nat.exists_eq_add_of_le h
  rw [Scan.slice, Nat.add_sub_cancel_left, ← List.drop_drop, List.take_append_drop]

/-- Without a newline in between, the second point is on the line of the first. -/
theorem Point.counted_of_not_mem (hle : start ≤ stop) (h : '\n' ∉ Scan.slice text start stop) :
    Point.counted text stop = ⟨stop, (Point.counted text start).line,
      (Point.counted text start).column + (Scan.slice text start stop).length⟩ := by
  have hcount := List.count_eq_zero.2 h
  simp only [Point.counted, take_eq_append_slice hle, List.count_append, hcount, lastLine_append,
    if_neg h, List.length_append, Nat.add_zero, Point.mk.injEq, true_and]
  omega

/-- Over a newline the second point is on a later line. -/
theorem Point.line_counted_lt (hle : start ≤ stop) (h : '\n' ∈ Scan.slice text start stop) :
    (Point.counted text start).line < (Point.counted text stop).line := by
  have hcount := List.count_pos_iff.2 h
  simp only [Point.counted, take_eq_append_slice hle, List.count_append]
  omega

end Counted

end TemplateUsage
