import Mathlib.Data.List.GetD
import Mathlib.Data.List.Induction
import TemplateUsage.Location.Lines

set_option autoImplicit false

/-!
# Lines and columns by counting

The line of an offset is one more than the newlines before it, and its column is
one more than the characters since the last of them (`Point.counted`). The binary
search over the line starts finds the same point (`Lines.point_ofText`). A point of
a text that stands inside another one is found there by translation
(`Point.counted_append`).
-/

namespace TemplateUsage

/-! ## Counted points -/

/-- The characters after the last newline. -/
def lastLine (text : List Char) : List Char := (text.reverse.takeWhile (· != '\n')).reverse

/-- The point of an offset, by counting the newlines before it and the characters
since the last of them. -/
def Point.counted (text : List Char) (offset : Nat) : Point :=
  ⟨offset, (text.take offset).count '\n' + 1, (lastLine (text.take offset)).length + 1⟩

@[simp] theorem Point.offset_counted (text : List Char) (offset : Nat) :
    (Point.counted text offset).offset = offset := rfl

@[simp] theorem lastLine_nil : lastLine [] = [] := rfl

theorem lastLine_concat_newline (text : List Char) : lastLine (text ++ ['\n']) = [] := by
  simp [lastLine]

theorem lastLine_concat {c : Char} (text : List Char) (hc : c ≠ '\n') :
    lastLine (text ++ [c]) = lastLine text ++ [c] := by
  simp [lastLine, hc]

/-- Without a newline in the back, the last line goes on through it. -/
theorem lastLine_append (front back : List Char) :
    lastLine (front ++ back) = if '\n' ∈ back then lastLine back else lastLine front ++ back := by
  induction back using List.reverseRecOn with
  | nil => simp
  | append_singleton back c ih =>
      rw [← List.append_assoc]
      by_cases hc : c = '\n'
      · subst hc
        rw [lastLine_concat_newline, lastLine_concat_newline, if_pos (by simp)]
      · rw [lastLine_concat _ hc, lastLine_concat _ hc, ih]
        simp only [List.mem_append, List.mem_singleton, Ne.symm hc, or_false]
        split
        · rfl
        · rw [List.append_assoc]

/-! ## Line starts -/

theorem lineStartsAfter_append (offset : Nat) (front back : List Char) :
    lineStartsAfter offset (front ++ back) =
      lineStartsAfter offset front ++ lineStartsAfter (offset + front.length) back := by
  induction front generalizing offset with
  | nil => rfl
  | cons c rest ih =>
      have hoffset : offset + (c :: rest).length = offset + 1 + rest.length := by
        rw [List.length_cons]
        omega
      rw [List.cons_append, lineStartsAfter, lineStartsAfter, ih, hoffset]
      split <;> rfl

theorem length_lineStartsAfter (offset : Nat) (text : List Char) :
    (lineStartsAfter offset text).length = text.count '\n' := by
  induction text generalizing offset with
  | nil => rfl
  | cons c rest ih =>
      rw [lineStartsAfter, List.count_cons]
      split
      · rename_i hc
        simp [ih, hc]
      · rename_i hc
        simp [ih, hc]

theorem bounds_of_mem_lineStartsAfter {offset start : Nat} {text : List Char}
    (h : start ∈ lineStartsAfter offset text) : offset < start ∧ start ≤ offset + text.length := by
  induction text generalizing offset with
  | nil => simp [lineStartsAfter] at h
  | cons c rest ih =>
      rw [List.length_cons]
      rw [lineStartsAfter] at h
      split at h
      · rcases List.mem_cons.1 h with rfl | h
        · omega
        · have := ih h
          omega
      · have := ih h
        omega

/-- The last line starts where the characters after the last newline do. -/
theorem getLastD_lineStartsAfter (offset : Nat) (text : List Char) :
    (lineStartsAfter offset text).getLastD offset + (lastLine text).length =
      offset + text.length := by
  induction text using List.reverseRecOn with
  | nil => rfl
  | append_singleton text c ih =>
      rw [lineStartsAfter_append]
      by_cases hc : c = '\n'
      · subst hc
        simp [lineStartsAfter, lastLine_concat_newline]
        omega
      · simp only [lineStartsAfter, hc, if_false, List.append_nil, lastLine_concat text hc,
          List.length_append, List.length_singleton]
        omega

/-! ## The search -/

/-- The search finds where the starts up to the offset end and those beyond it begin. -/
theorem Lines.search_eq {lines : Lines} {offset : Nat} {front back : List Nat}
    (hstarts : lines.starts.toList = front ++ back) (hfront : ∀ start ∈ front, start ≤ offset)
    (hback : ∀ start ∈ back, offset < start) {low high : Nat} (hlow : low ≤ front.length)
    (hhigh : front.length ≤ high) (hsize : high ≤ lines.starts.size) :
    lines.search offset low high = front.length := by
  have hget : ∀ i, lines.starts.getD i 0 = (front ++ back).getD i 0 := by
    intro i
    rw [← hstarts, Array.getD_eq_getD_getElem?, List.getD_eq_getElem?_getD,
      Array.getElem?_toList]
  fun_induction Lines.search lines offset low high with
  | case1 low high hlt middle hbeyond ih =>
      -- a start beyond the offset is one of the back
      refine ih hlow ?_ (by omega)
      by_contra hmiddle
      have hmem : (front ++ back).getD middle 0 ∈ front := by
        rw [List.getD_append _ _ _ _ (by omega), List.getD_eq_getElem _ _ (by omega)]
        exact List.getElem_mem _
      have := hfront _ hmem
      rw [hget] at hbeyond
      omega
  | case2 low high hlt middle hwithin ih =>
      refine ih ?_ hhigh hsize
      by_contra hmiddle
      have hlength : (front ++ back).length = lines.starts.size := by
        rw [← hstarts, Array.length_toList]
      have hmem : (front ++ back).getD middle 0 ∈ back := by
        rw [List.length_append] at hlength
        rw [List.getD_append_right _ _ _ _ (by omega), List.getD_eq_getElem _ _ (by omega)]
        exact List.getElem_mem _
      have := hback _ hmem
      rw [hget] at hwithin
      omega
  | case3 low high hge => omega

/-- The search finds the counted point. -/
theorem Lines.point_ofText {text : List Char} {offset : Nat} (h : offset ≤ text.length) :
    (Lines.ofText text).point offset = Point.counted text offset := by
  have hlength : (text.take offset).length = offset := List.length_take_of_le h
  -- the offset divides the starts of lines into those up to it and those behind it
  have hstarts : (Lines.ofText text).starts.toList =
      (0 :: lineStartsAfter 0 (text.take offset)) ++ lineStartsAfter offset (text.drop offset) := by
    have hsplit := lineStartsAfter_append 0 (text.take offset) (text.drop offset)
    rw [List.take_append_drop, hlength, Nat.zero_add] at hsplit
    rw [Lines.ofText, hsplit]
    rfl
  have hfront : ∀ start ∈ 0 :: lineStartsAfter 0 (text.take offset), start ≤ offset := by
    intro start hmem
    rcases List.mem_cons.1 hmem with rfl | hmem
    · exact Nat.zero_le _
    · have := bounds_of_mem_lineStartsAfter hmem
      omega
  have hback : ∀ start ∈ lineStartsAfter offset (text.drop offset), offset < start :=
    fun start hmem => (bounds_of_mem_lineStartsAfter hmem).1
  have hsize : (0 :: lineStartsAfter 0 (text.take offset)).length ≤
      (Lines.ofText text).starts.size := by
    rw [← Array.length_toList, hstarts, List.length_append]
    exact Nat.le_add_right _ _
  have hsearch := Lines.search_eq hstarts hfront hback (Nat.zero_le _) hsize (Nat.le_refl _)
  have hindex : (0 :: lineStartsAfter 0 (text.take offset)).length - 1 =
      (text.take offset).count '\n' := by
    rw [List.length_cons, length_lineStartsAfter, Nat.add_sub_cancel]
  have hstart : (Lines.ofText text).starts.getD ((text.take offset).count '\n') 0 =
      (lineStartsAfter 0 (text.take offset)).getLastD 0 := by
    rw [Array.getD_eq_getD_getElem?, ← Array.getElem?_toList, hstarts, ← hindex,
      List.getElem?_append_left (by simp), ← List.getLast?_eq_getElem?, List.getLast?_cons,
      List.getLastD_eq_getLast?]
    rfl
  have hlast := getLastD_lineStartsAfter 0 (text.take offset)
  rw [← hstart, hlength] at hlast
  rw [Lines.point, hsearch, hindex, Point.counted, Point.mk.injEq]
  refine ⟨rfl, rfl, ?_⟩
  omega

theorem Lines.span_ofText {text : List Char} {start stop : Nat} (hstart : start ≤ text.length)
    (hstop : stop ≤ text.length) :
    (Lines.ofText text).span start stop = ⟨Point.counted text start, Point.counted text stop⟩ := by
  rw [Lines.span, Lines.point_ofText hstart, Lines.point_ofText hstop]

/-! ## Texts inside other texts -/

/-- A point of a text that stands at the point `origin` of another one. -/
def Point.translate (origin point : Point) : Point where
  offset := origin.offset + point.offset
  line := origin.line + point.line - 1
  column := if point.line = 1 then origin.column + point.column - 1 else point.column

/-- Counting through a front and into the text after it is counting in that text
alone and translating to where it stands. -/
theorem Point.counted_append (front back : List Char) (offset : Nat) :
    Point.counted (front ++ back) (front.length + offset) =
      (Point.counted (front ++ back) front.length).translate (Point.counted back offset) := by
  have htake : (front ++ back).take (front.length + offset) = front ++ back.take offset :=
    List.take_length_add_append offset
  have hfront : (front ++ back).take front.length = front := List.take_left
  simp only [Point.counted, Point.translate, htake, hfront, Point.mk.injEq, true_and,
    List.count_append, lastLine_append, Nat.add_eq_right, List.count_eq_zero]
  refine ⟨by omega, ?_⟩
  by_cases hnewline : '\n' ∈ back.take offset
  · simp [hnewline]
  · have hline : lastLine (back.take offset) = back.take offset := by
      simpa [hnewline] using lastLine_append [] (back.take offset)
    simp [hnewline, hline]
    omega

/-- What comes after an offset does not move its point. -/
theorem Point.counted_append_left {front : List Char} {offset : Nat} (h : offset ≤ front.length)
    (back : List Char) : Point.counted (front ++ back) offset = Point.counted front offset := by
  rw [Point.counted, Point.counted, List.take_append_of_le_length h]

end TemplateUsage
