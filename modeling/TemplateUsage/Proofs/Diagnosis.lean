import TemplateUsage.Proofs.Parsing
import TemplateUsage.Proofs.Recogniser.Alignment
import TemplateUsage.Proofs.Snippet
import TemplateUsage.Proofs.Tree.Failures

set_option autoImplicit false

/-!
# Errors of a template point at it

An error of parsing is located at characters of the text and shows them, with carets
under them (`SyntaxError.MarksAt`), or at the end of the text, with one caret after it
(`SyntaxError.MarksEnd`). Every rejection points at characters that can be seen, or is
made at the end of the text (`Template.rejection_of_parse`). Main statement:
`parse_error_pinpoints`. The one exception is a text that ends too early after a token
without a value, such as an empty comment, whose end is shown at the beginning of the
text.
-/

namespace TemplateUsage

open Scan

/-! ## Quoted lines -/

/-- What is shown has the line of the offset under its number, with `marked` at the
offset and carets under it. -/
structure Quotes (source shown : String) (offset : Nat) (marked right : List Char) : Prop where
  line_eq : (Text.lines source)[(Point.counted source.toList offset).line - 1]? =
    some (String.ofList (lastLine (source.toList.take offset) ++ marked ++ right))
  snippet_isInfix :
    snippet (Point.counted source.toList offset).line (lastLine (source.toList.take offset))
      marked right <:+: Text.lines shown

namespace SyntaxError

/-- The error is located at the characters from `start` up to `stop`, and shows them:
all of them when they are on one line, else the first. -/
structure MarksAt (file source : String) (error : SyntaxError) (start stop : Nat) : Prop where
  start_lt : start < stop
  stop_le : stop ≤ source.length
  location_eq : error.location =
    (Span.mk (Point.counted source.toList start) (Point.counted source.toList stop)).inFile file
  onLine : '\n' ∉ slice source.toList start stop →
    ∃ right, Quotes source error.render start (slice source.toList start stop) right
  overLines : '\n' ∈ slice source.toList start stop →
    ∃ c right, source.toList[start]? = some c ∧ Quotes source error.render start [c] right

/-- The error is located at the end of the text, and shows the place after its last
line. -/
structure MarksEnd (file source : String) (error : SyntaxError) : Prop where
  location_eq : error.location =
    (Span.mk (Point.counted source.toList source.length) ⟨source.length, 0, 0⟩).inFile file
  line_eq : (Point.counted source.toList source.length).line = (Text.lines source).length
  shown : Quotes source error.render source.length [] []

/-- The error points at the place it is about. -/
def Pinpoints (file source : String) (error : SyntaxError) : Prop :=
  if error.fault.code = .unexpectedEnd then error.MarksEnd file source
  else ∃ start stop, error.MarksAt file source start stop

/-! ## Showing a rejection -/

theorem sourceLine?_ofRejection (file source : String) (rejection : Rejection)
    (h : 0 < rejection.span.start.line) :
    Diagnostic.sourceLine? (ofRejection file source rejection).sources
      (rejection.span.inFile file) =
        (Text.lines source)[rejection.span.start.line - 1]? := by
  have hline : (0 : Int) < (rejection.span.inFile file).line := Int.natCast_pos.2 h
  have hfind : (ofRejection file source rejection).sources.find? file = some source := by
    simp [ofRejection, sources, Sources.empty, Sources.insert, Sources.find?, Span.inFile]
  have hfile : (rejection.span.inFile file).file = file := rfl
  have hnumber : (rejection.span.inFile file).line.toNat = rejection.span.start.line :=
    Int.toNat_natCast _
  rw [Diagnostic.sourceLine?, hfile, hfind, Option.bind_some, if_pos hline, hnumber]

/-- A rejection on the line of an offset shows that line, if its carets do. -/
theorem quotes_ofRejection {file source : String} {rejection : Rejection} {offset : Nat}
    {marked right : List Char}
    (hline : rejection.span.start.line = (Point.counted source.toList offset).line)
    (hright : (source.toList.drop offset).takeWhile (· != '\n') = marked ++ right)
    (hcarets : Diagnostic.carets (rejection.span.inFile file) =
      fill ' ' (lastLine (source.toList.take offset)) ++
        if marked = [] then "^" else fill '^' marked) :
    Quotes source (ofRejection file source rejection).render offset marked right := by
  have hquoted := Text.getElem?_lines source offset
  rw [hright, ← List.append_assoc] at hquoted
  refine ⟨hquoted, ?_⟩
  have hpos : 0 < rejection.span.start.line := by
    rw [hline]
    exact Nat.succ_pos _
  have hnewline : '\n' ∉ lastLine (source.toList.take offset) ++ marked ++ right := by
    rw [List.append_assoc, ← hright, List.mem_append, not_or]
    exact ⟨newline_not_mem_lastLine _, newline_not_mem_takeWhile _⟩
  refine Diagnostic.snippet_isInfix rfl (congrArg Nat.cast hline) ?_ hnewline hcarets
  exact (sourceLine?_ofRejection file source rejection hpos).trans (by rw [hline, hquoted])

section Visible

variable {text : List Char} {start stop : Nat}

/-- On one line the characters of a span are the first of the rest of that line. -/
theorem takeWhile_drop_of_not_mem (hlt : start < stop) (h : '\n' ∉ slice text start stop) :
    (text.drop start).takeWhile (· != '\n') =
      slice text start stop ++ (text.drop stop).takeWhile (· != '\n') := by
  rw [drop_eq_slice_append hlt.le]
  apply List.takeWhile_append_of_pos
  intro c hc
  rw [bne_iff_ne]
  rintro rfl
  exact h hc

/-- The rest of a line starts with the character that can be seen. -/
theorem takeWhile_drop_of_visible {c : Char} (hc : text[start]? = some c) (hvisible : c ≠ '\n') :
    (text.drop start).takeWhile (· != '\n') =
      [c] ++ (text.drop (start + 1)).takeWhile (· != '\n') := by
  obtain ⟨hstart, hget⟩ := List.getElem?_eq_some_iff.1 hc
  rw [List.drop_eq_getElem_cons hstart, hget, List.takeWhile_cons_of_pos (by simpa using hvisible)]
  rfl

theorem slice_ne_nil (hlt : start < stop) (hle : stop ≤ text.length) :
    slice text start stop ≠ [] := by
  rw [← List.length_pos_iff, slice, List.length_take, List.length_drop]
  omega

end Visible

/-- A rejection at characters that can be seen marks them. -/
theorem marksAt_ofRejection (file : String) {source : String} {rejection : Rejection}
    (h : rejection.span.Visible source.toList) :
    (ofRejection file source rejection).MarksAt file source rejection.span.start.offset
      rejection.span.stop.offset := by
  obtain ⟨fault, span⟩ := rejection
  obtain ⟨hlt, hle, ⟨c, hc, hvisible⟩, hspan⟩ := h
  dsimp only at hlt hle hc hspan ⊢
  generalize span.start.offset = start at hlt hc hspan ⊢
  generalize span.stop.offset = stop at hlt hle hspan ⊢
  subst hspan
  refine ⟨hlt, hle, rfl, fun hnewline => ?_, fun hnewline => ?_⟩
  · -- on one line: the columns of the two points differ by the number of characters
    refine ⟨_, quotes_ofRejection rfl (takeWhile_drop_of_not_mem hlt hnewline) ?_⟩
    have hne := slice_ne_nil hlt hle
    have hstop := Point.counted_of_not_mem hlt.le hnewline
    rw [if_neg hne, hstop]
    exact Diagnostic.carets_onLine rfl rfl rfl hne
  · -- over lines: the end has another line number, so there is one caret
    refine ⟨c, _, hc, quotes_ofRejection rfl (takeWhile_drop_of_visible hc hvisible) ?_⟩
    have hline := Point.line_counted_lt hlt.le hnewline
    refine Diagnostic.carets_overLines rfl fun heq => ?_
    exact hline.ne' (Int.ofNat.inj heq)

/-- A rejection at the end of a text, if it is on the line and column of the end, marks
the place after it. -/
theorem marksEnd_ofRejection (file : String) {source : String} {rejection : Rejection}
    (h : rejection.span =
      ⟨Point.counted source.toList source.length, ⟨source.length, 0, 0⟩⟩) :
    (ofRejection file source rejection).MarksEnd file source := by
  obtain ⟨fault, span⟩ := rejection
  dsimp only at h
  subst h
  have hlength : source.toList.length = source.length := String.length_toList
  refine ⟨rfl, ?_, quotes_ofRejection rfl ?_ ?_⟩
  · rw [Text.length_lines, Point.counted, List.take_of_length_le hlength.le]
  · rw [List.drop_eq_nil_of_le hlength.le]
    rfl
  · -- the stop of such a span is on line 0, which is no line of a text
    exact Diagnostic.carets_overLines rfl (by simp [Span.inFile, Point.counted]; omega)

end SyntaxError

/-! ## Rejections of a text -/

namespace Template

/-- A token stands where it can be seen, unless it may hold any character. -/
theorem visible_of_not_fills {source : String} {front back : List Token} {token : Token}
    (htokens : (ofText source).tokens = front ++ token :: back)
    (hfills : ¬ token.kind.Fills (openAfter [] front)) :
    token.lexeme.span.Visible source.toList := by
  have hmem : token ∈ (ofText source).tokens := by
    rw [htokens]
    exact List.mem_append_right _ List.mem_cons_self
  obtain ⟨⟨hlt, hle, -⟩, hspan, -⟩ := (laid_ofText source).located token hmem
  refine ⟨hlt, hle, ?_, hspan⟩
  obtain ⟨c, hc⟩ : ∃ c, source.toList[token.start]? = some c :=
    ⟨_, List.getElem?_eq_getElem (hlt.trans_le hle)⟩
  refine ⟨c, hc, ?_⟩
  rintro rfl
  exact hfills (fills_of_newline htokens hc)

/-- A text ends too early: it is scanned to its end and rejected there. -/
structure RejectedAtEnd (source : String) (rejection : Rejection) : Prop where
  code_eq : rejection.fault.code = .unexpectedEnd
  scanned : (ofText source).rejection = none
  span_eq : rejection.span = endSpan source (ofText source).tokens

/-- A text is rejected at characters of it that can be seen, or at its end. -/
theorem visible_of_recognise {source : String} {rejection : Rejection}
    (h : recognise source = .error rejection) :
    (rejection.fault.code ≠ .unexpectedEnd ∧ rejection.span.Visible source.toList) ∨
      RejectedAtEnd source rejection := by
  rw [recognise, read] at h
  cases hread : Recogniser.Config.initial.readAll (ofText source).tokens with
  | error refusal =>
      -- a refused token comes before a fault of the scanner
      rw [hread] at h
      cases h
      obtain ⟨front, back, htokens, hfills⟩ := Recogniser.not_fills_of_refusal hread
      exact .inl ⟨by rintro ⟨⟩, visible_of_not_fills htokens hfills⟩
  | ok config =>
      rw [hread] at h
      cases hrejection : (ofText source).rejection with
      | some found =>
          rw [hrejection] at h
          cases h
          obtain ⟨hlexical, hvisible⟩ := visible_of_rejection hrejection
          exact .inl ⟨hlexical.code_ne, hvisible⟩
      | none =>
          rw [hrejection] at h
          dsimp only [bind, Except.bind] at h
          split at h
          · cases h
          · cases h
            exact .inr ⟨rfl, hrejection, rfl⟩

/-- What building rejects can be seen. -/
theorem visible_of_build {file source : String} {statements : List Phrase.Statement}
    {rejection : Rejection} (hrecognise : recognise source = .ok statements)
    (h : Phrase.buildTemplate file statements = .error (.rejected rejection)) :
    rejection.fault.code ≠ .unexpectedEnd ∧ rejection.span.Visible source.toList := by
  obtain ⟨hfault, token, hmem, hkind, hspan⟩ := Phrase.buildTemplate_mismatched h
  have htokens :=
    (recognise_eq_ok_iff (rejection_of_recognise hrecognise) statements).1 hrecognise
  rw [htokens] at hmem
  obtain ⟨front, back, hsplit⟩ := List.append_of_mem hmem
  refine ⟨hfault.code_ne, hspan ▸ visible_of_not_fills hsplit ?_⟩
  rcases hkind with hkind | hkind <;> simp [Kind.Fills, hkind]

/-- A syntax error is a rejection at characters that can be seen, or at the end. -/
theorem rejection_of_parse {file source : String} {error : SyntaxError}
    (h : parse file source = .error (.rejected error)) :
    ∃ rejection, error = .ofRejection file source rejection ∧
      ((rejection.fault.code ≠ .unexpectedEnd ∧ rejection.span.Visible source.toList) ∨
        RejectedAtEnd source rejection) := by
  rw [parse] at h
  split at h
  · rename_i rejection hrecognise
    cases h
    exact ⟨rejection, rfl, visible_of_recognise hrecognise⟩
  · rename_i statements hrecognise
    split at h
    · cases h
    · rename_i rejection hbuild
      cases h
      exact ⟨rejection, rfl, .inl (visible_of_build hrecognise hbuild)⟩
    · cases h

/-! ## The end of a text -/

/-- The text ends in a token without a value. -/
def EndsEmpty (source : String) : Prop :=
  ((ofText source).tokens.getLast?.map fun token => token.lexeme.value) = some ""

instance : DecidablePred EndsEmpty := fun source => inferInstanceAs
  (Decidable (((ofText source).tokens.getLast?.map fun token => token.lexeme.value) = some ""))

/-- A text is shown to end where it ends, if its last token has a value. -/
theorem endSpan_eq {source : String} (hscan : (ofText source).rejection = none)
    (hends : ¬ EndsEmpty source) :
    endSpan source (ofText source).tokens =
      ⟨Point.counted source.toList source.length, ⟨source.length, 0, 0⟩⟩ := by
  have hstop := stopAfter_ofText hscan
  have hpoint : endPoint (ofText source).tokens =
      Point.counted source.toList source.length := by
    unfold endPoint
    split
    · -- the last token ends where the text does, and its stop is counted right
      rename_i token hlast
      have hvalue : ¬ token.lexeme.value.isEmpty = true := fun hempty =>
        hends (Option.map_eq_some_iff.2 ⟨token, hlast, String.isEmpty_iff.1 hempty⟩)
      obtain ⟨-, hspan, -⟩ :=
        (laid_ofText source).located token (List.mem_of_getLast? hlast)
      rw [stopAfter_of_getLast hlast] at hstop
      rw [if_neg hvalue, hspan, hstop]
    · rename_i hlast
      rw [List.getLast?_eq_none_iff.1 hlast] at hstop
      rw [← hstop]
      rfl
  rw [endSpan, hpoint]
  rfl

/-- After a token without a value a text is shown to end at its beginning. -/
theorem endSpan_of_endsEmpty {source : String} (hends : EndsEmpty source) :
    endSpan source (ofText source).tokens =
      ⟨⟨source.length, 1, 1⟩, ⟨source.length, 0, 0⟩⟩ := by
  obtain ⟨token, hlast, hvalue⟩ := Option.map_eq_some_iff.1 hends
  have hpoint : endPoint (ofText source).tokens = ⟨0, 1, 1⟩ := by
    unfold endPoint
    rw [hlast]
    exact if_pos (String.isEmpty_iff.2 hvalue)
  rw [endSpan, hpoint]

/-- A text with a token does not end at its beginning. -/
theorem counted_length_ne {source : String} (hends : EndsEmpty source) :
    Point.counted source.toList source.length ≠ ⟨source.length, 1, 1⟩ := by
  obtain ⟨token, hlast, -⟩ := Option.map_eq_some_iff.1 hends
  obtain ⟨⟨hlt, hle, -⟩, -, -⟩ :=
    (laid_ofText source).located token (List.mem_of_getLast? hlast)
  intro h
  have htake : source.toList.take source.length = source.toList :=
    List.take_of_length_le String.length_toList.le
  rw [Point.counted, htake, Point.mk.injEq] at h
  obtain ⟨-, hline, hcolumn⟩ := h
  -- on the first line the column counts all characters
  have hnone : '\n' ∉ source.toList := List.count_eq_zero.1 (Nat.succ.inj hline)
  have hwhole : lastLine source.toList = source.toList := by
    simpa [hnone] using lastLine_append [] source.toList
  rw [hwhole] at hcolumn
  omega

/-- An error located on the first line and column does not mark the end of a text with
a token. -/
theorem not_marksEnd {file source : String} {error : SyntaxError} (hends : EndsEmpty source)
    (h : error.location = ⟨file, 1, 1, source.length, source.length, 0, 0⟩) :
    ¬ error.MarksEnd file source := by
  intro hmarks
  have hlocation := hmarks.location_eq
  rw [h, Span.inFile, Location.mk.injEq] at hlocation
  obtain ⟨-, hline, hcolumn, -⟩ := hlocation
  apply counted_length_ne hends
  rw [Point.counted, Point.mk.injEq]
  exact ⟨rfl, Int.ofNat.inj hline.symm, Int.ofNat.inj hcolumn.symm⟩

/-- A rejection at the end that stands on the first line and column shows the first
line, with a caret under its first column. -/
theorem quotes_start {file source : String} {rejection : Rejection}
    (h : rejection.span = ⟨⟨source.length, 1, 1⟩, ⟨source.length, 0, 0⟩⟩) :
    ∃ right, Quotes source (SyntaxError.ofRejection file source rejection).render 0 [] right := by
  refine ⟨_, SyntaxError.quotes_ofRejection ?_ rfl ?_⟩
  · rw [h]
    rfl
  · rw [h]
    exact Diagnostic.carets_overLines rfl nofun

/-- A syntax error points at the place it is about, in the named file, inside the text,
counted right and shown with its carets, unless the text ends too early after a token
without a value. Then it is located at the end of the text by its offsets but on the
first line and column, and it shows the first line with a caret under its first
column. -/
theorem parse_error_pinpoints {file source : String} {error : SyntaxError}
    (h : parse file source = .error (.rejected error)) :
    (error.Pinpoints file source ↔
      ¬ (error.fault.code = .unexpectedEnd ∧ EndsEmpty source)) ∧
    (error.fault.code = .unexpectedEnd ∧ EndsEmpty source →
      error.location = ⟨file, 1, 1, source.length, source.length, 0, 0⟩ ∧
        ∃ right, Quotes source error.render 0 [] right) := by
  obtain ⟨rejection, rfl, ⟨hcode, hvisible⟩ | ⟨hcode, hscan, hspan⟩⟩ := rejection_of_parse h
  · -- every other code is given at characters that can be seen
    have hmarks : (SyntaxError.ofRejection file source rejection).Pinpoints file source :=
      (if_neg hcode).mpr ⟨_, _, SyntaxError.marksAt_ofRejection file hvisible⟩
    exact ⟨iff_of_true hmarks fun hend => hcode hend.1, fun hend => absurd hend.1 hcode⟩
  · have hpinpoints : (SyntaxError.ofRejection file source rejection).Pinpoints file source ↔
        (SyntaxError.ofRejection file source rejection).MarksEnd file source :=
      iff_of_eq (if_pos hcode)
    rw [hpinpoints]
    by_cases hends : EndsEmpty source
    · -- the offsets are right, the line and the column are those of the beginning
      rw [endSpan_of_endsEmpty hends] at hspan
      have hlocation : (SyntaxError.ofRejection file source rejection).location =
          ⟨file, 1, 1, source.length, source.length, 0, 0⟩ :=
        congrArg (Span.inFile file) hspan
      exact ⟨iff_of_false (not_marksEnd hends hlocation) fun hend => hend ⟨hcode, hends⟩,
        fun _ => ⟨hlocation, quotes_start hspan⟩⟩
    · rw [endSpan_eq hscan hends] at hspan
      exact ⟨iff_of_true (SyntaxError.marksEnd_ofRejection file hspan) fun hend => hends hend.2,
        fun hend => absurd hend.2 hends⟩

/-- The syntax error of a text, if parsing ends in one. -/
def syntaxError? (file source : String) : Option SyntaxError :=
  match parse file source with
  | .error (.rejected error) => some error
  | _ => none

theorem parse_of_syntaxError? {file source : String} {error : SyntaxError}
    (h : syntaxError? file source = some error) :
    parse file source = .error (.rejected error) := by
  unfold syntaxError? at h
  split at h
  · cases h
    assumption
  · cases h

/-- A string over two lines where no argument can stand. -/
def lateString : String := "<p>\n\x7b\x7ba b=c \"d\ne\"\x7d\x7d"

/-- The string is refused, and the error points at it. -/
theorem parse_error_pinpoints_lateString :
    ∃ error, parse "page" lateString = .error (.rejected error) ∧
      error.fault.code = .malformed ∧ error.location = ⟨"page", 2, 9, 12, 17, 3, 3⟩ ∧
        error.Pinpoints "page" lateString := by
  have hfound : ((syntaxError? "page" lateString).map fun error =>
      (error.fault.code, error.location)) =
        some (.malformed, ⟨"page", 2, 9, 12, 17, 3, 3⟩) := by decide +kernel
  obtain ⟨error, herror, heq⟩ := Option.map_eq_some_iff.1 hfound
  obtain ⟨hcode, hlocation⟩ := Prod.mk.inj heq
  have hparse := parse_of_syntaxError? herror
  have hnot : ¬ (error.fault.code = .unexpectedEnd ∧ EndsEmpty lateString) := by
    rw [hcode]
    nofun
  exact ⟨error, hparse, hcode, hlocation, (parse_error_pinpoints hparse).1.2 hnot⟩

/-- A block that is not closed, up to an empty comment. -/
def openBlock : String := "\x7b\x7b#a\x7d\x7d\x7b\x7b!\x7d\x7d"

/-- The block ends too early at column 12, but the error is located at column 1. -/
theorem not_pinpoints_openBlock :
    ∃ error, parse "page" openBlock = .error (.rejected error) ∧
      error.location = ⟨"page", 1, 1, 11, 11, 0, 0⟩ ∧
      Point.counted openBlock.toList 11 = ⟨11, 1, 12⟩ ∧ ¬ error.Pinpoints "page" openBlock := by
  have hfound : ((syntaxError? "page" openBlock).map fun error =>
      (error.fault.code, error.location)) =
        some (.unexpectedEnd, ⟨"page", 1, 1, 11, 11, 0, 0⟩) := by decide +kernel
  obtain ⟨error, herror, heq⟩ := Option.map_eq_some_iff.1 hfound
  obtain ⟨hcode, hlocation⟩ := Prod.mk.inj heq
  refine ⟨error, parse_of_syntaxError? herror, hlocation, by decide, ?_⟩
  rw [SyntaxError.Pinpoints, if_pos hcode]
  have hends : EndsEmpty openBlock := by decide +kernel
  exact not_marksEnd hends hlocation

end Template

end TemplateUsage
