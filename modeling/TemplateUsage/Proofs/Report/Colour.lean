import TemplateUsage.Proofs.Snippet
import TemplateUsage.Report

set_option autoImplicit false

/-!
# Colour is decoration

A colour mark is an escape character, a bracket, digits and semicolons, and the letter `m`.
`stripMarks` takes the marks out of a text. A piece of a coloured text `Shows` a plain piece
if taking out the marks leaves the plain piece, whatever follows; such pieces can be put
together, so what holds of a segment holds of a line, of a diagnostic and of a report. Main
statement: `Report.stripMarks_render`.
-/

namespace TemplateUsage

/-! ## Marks -/

/-- The character that a mark starts with. -/
def escapeChar : Char := '\x1b'

/-- The characters between the bracket and the end of a mark. -/
def isMarkChar (c : Char) : Bool := c.isDigit || c == ';'

/-- What follows the mark that a text starts with. -/
def afterMark? : List Char → Option (List Char)
  | '\x1b' :: '[' :: rest =>
      match rest.dropWhile isMarkChar with
      | 'm' :: after => some after
      | _ => none
  | _ => none

/-- A mark ends at the first character that cannot stand in its code. -/
theorem afterMark?_eq_some_iff {cs after : List Char} :
    afterMark? cs = some after ↔
      ∃ code : List Char, code.all isMarkChar = true ∧
        cs = escapeChar :: '[' :: (code ++ 'm' :: after) := by
  constructor
  · intro h
    unfold afterMark? at h
    split at h
    · rename_i rest
      split at h
      · rename_i hrest
        cases h
        refine ⟨rest.takeWhile isMarkChar, List.all_takeWhile, ?_⟩
        rw [← hrest, List.takeWhile_append_dropWhile]
        rfl
      · cases h
    · cases h
  · rintro ⟨code, hcode, rfl⟩
    have hdrop : (code ++ 'm' :: after).dropWhile isMarkChar = 'm' :: after := by
      rw [List.dropWhile_append_of_pos (List.all_eq_true.1 hcode)]
      rfl
    have hmark : afterMark? (escapeChar :: '[' :: (code ++ 'm' :: after)) =
        match (code ++ 'm' :: after).dropWhile isMarkChar with
        | 'm' :: after => some after
        | _ => none := rfl
    rw [hmark, hdrop]
    rfl

theorem length_lt_of_afterMark? {cs after : List Char} (h : afterMark? cs = some after) :
    after.length < cs.length := by
  obtain ⟨code, -, rfl⟩ := afterMark?_eq_some_iff.1 h
  simp only [List.length_cons, List.length_append]
  omega

/-- The text without its marks, found from the left. -/
def stripMarks : List Char → List Char
  | [] => []
  | c :: rest =>
      match _h : afterMark? (c :: rest) with
      | some after => stripMarks after
      | none => c :: stripMarks rest
termination_by cs => cs.length
decreasing_by
  · exact length_lt_of_afterMark? _h
  · exact Nat.lt_succ_self _

theorem stripMarks_nil : stripMarks [] = [] := by rw [stripMarks]

/-- A mark is passed over. -/
theorem stripMarks_of_mark {cs after : List Char} (h : afterMark? cs = some after) :
    stripMarks cs = stripMarks after := by
  cases cs with
  | nil => cases h
  | cons c rest =>
      rw [stripMarks]
      split
      · rename_i found hfound
        rw [h] at hfound
        cases hfound
        rfl
      · rename_i hnone
        rw [h] at hnone
        cases hnone

theorem stripMarks_cons {c : Char} (hc : c ≠ escapeChar) (rest : List Char) :
    stripMarks (c :: rest) = c :: stripMarks rest := by
  rw [stripMarks]
  split
  · -- a mark would start with the escape character
    rename_i hmark
    obtain ⟨code, -, hcons⟩ := afterMark?_eq_some_iff.1 hmark
    exact absurd (List.cons.inj hcons).1 hc
  · rfl

/-! ## Pieces of a coloured text -/

/-- Without its marks the coloured piece is the plain one, whatever follows it. -/
def Shows (coloured plain : List Char) : Prop :=
  ∀ rest, stripMarks (coloured ++ rest) = plain ++ stripMarks rest

namespace Shows

theorem strip_eq {coloured plain : List Char} (h : Shows coloured plain) :
    stripMarks coloured = plain := by
  have hnil := h []
  rwa [List.append_nil, stripMarks_nil, List.append_nil] at hnil

/-- Texts shown one after the other are shown as one. -/
theorem append {first second plain next : List Char} (hfirst : Shows first plain)
    (hsecond : Shows second next) : Shows (first ++ second) (plain ++ next) := by
  intro rest
  rw [List.append_assoc, hfirst, hsecond, List.append_assoc]

/-- A text without escape characters shows itself, even if it looks like the end of a mark. -/
theorem of_not_mem {text : List Char} (h : escapeChar ∉ text) : Shows text text := by
  intro rest
  induction text with
  | nil => rfl
  | cons c text ih =>
      obtain ⟨hc, htext⟩ := not_or.1 (mt List.mem_cons.2 h)
      rw [List.cons_append, stripMarks_cons (Ne.symm hc), ih htext, List.cons_append]

/-- A mark shows nothing. -/
theorem of_mark (code : List Char) (h : code.all isMarkChar = true) :
    Shows (escapeChar :: '[' :: (code ++ ['m'])) [] := by
  intro rest
  refine stripMarks_of_mark (afterMark?_eq_some_iff.2 ⟨code, h, ?_⟩)
  simp

theorem join {α : Type} {coloured plain : α → String} {items : List α}
    (h : ∀ item ∈ items, Shows (coloured item).toList (plain item).toList) :
    Shows (String.join (items.map coloured)).toList (String.join (items.map plain)).toList := by
  induction items with
  | nil => exact of_not_mem List.not_mem_nil
  | cons item rest ih =>
      obtain ⟨hitem, hrest⟩ := List.forall_mem_cons.1 h
      rw [List.map_cons, String.join_cons, String.toList_append, List.map_cons, String.join_cons,
        String.toList_append]
      exact hitem.append (ih hrest)

theorem intercalate {α : Type} {separator : String} (hseparator : escapeChar ∉ separator.toList)
    {coloured plain : α → String} {items : List α}
    (h : ∀ item ∈ items, Shows (coloured item).toList (plain item).toList) :
    Shows (separator.intercalate (items.map coloured)).toList
      (separator.intercalate (items.map plain)).toList := by
  induction items with
  | nil => exact of_not_mem List.not_mem_nil
  | cons item rest ih =>
      obtain ⟨hitem, hrest⟩ := List.forall_mem_cons.1 h
      cases rest with
      | nil => simpa using hitem
      | cons next others =>
          simp only [List.map_cons, String.intercalate_cons_cons, String.toList_append]
          exact (hitem.append (of_not_mem hseparator)).append (ih hrest)

end Shows

/-! ## Segments -/

theorem Style.shows_marks (style : Style) : Shows style.marks.toList [] := by
  have hstrong : Shows (escapeChar :: '[' :: (['1'] ++ ['m'])) [] :=
    Shows.of_mark ['1'] (by decide)
  cases style with
  | plain => exact Shows.of_not_mem List.not_mem_nil
  | strong => exact hstrong
  | alarm => exact hstrong.append (Shows.of_mark ['3', '1'] (by decide))
  | frame => exact hstrong.append (Shows.of_mark ['3', '4'] (by decide))
  | advice => exact hstrong.append (Shows.of_mark ['3', '6'] (by decide))

/-- No mark can start in the text. -/
def Unmarked (text : String) : Prop := escapeChar ∉ text.toList

instance (text : String) : Decidable (Unmarked text) :=
  inferInstanceAs (Decidable (escapeChar ∉ text.toList))

/-- A text has no mark exactly when its parts have none. -/
@[simp]
theorem unmarked_append {first second : String} :
    Unmarked (first ++ second) ↔ Unmarked first ∧ Unmarked second := by
  rw [Unmarked, String.toList_append, List.mem_append, not_or]
  rfl

/-- A segment in colour shows its text. -/
theorem Segment.shows_render {segment : Segment} (h : Unmarked segment.text) :
    Shows (segment.render true).toList (segment.render false).toList := by
  have htext : Shows segment.text.toList segment.text.toList := Shows.of_not_mem h
  rw [render, render, Bool.false_and, if_neg Bool.false_ne_true]
  split
  · rw [String.toList_append, String.toList_append]
    have hreset : Shows "\x1b[0m".toList [] := Shows.of_mark ['0'] (by decide)
    have hshows := (segment.style.shows_marks.append htext).append hreset
    rwa [List.nil_append, List.append_nil] at hshows
  · exact htext

/-- Lines of segments in colour show the lines without colour. -/
theorem shows_renderLines {rows : List (List Segment)}
    (h : ∀ row ∈ rows, ∀ segment ∈ row, Unmarked segment.text) :
    Shows (renderLines true rows).toList (renderLines false rows).toList :=
  Shows.intercalate (by decide) fun row hrow =>
    Shows.join fun segment hsegment => Segment.shows_render (h row hrow segment hsegment)

/-! ## Diagnostics -/

theorem unmarked_toString (n : Int) : Unmarked (toString n) := by
  -- a minus sign may stand before the digits
  cases n with
  | ofNat n => exact not_mem_toString (by decide) n
  | negSucc n =>
      have htext : toString (Int.negSucc n) = "-" ++ toString (n + 1) := rfl
      rw [htext, unmarked_append]
      exact ⟨by decide, not_mem_toString (by decide) (n + 1)⟩

/-- Copies of a character are unmarked unless it is the escape character. -/
theorem unmarked_replicate {c : Char} (hc : c ≠ escapeChar) (n : Nat) :
    Unmarked (String.ofList (List.replicate n c)) := by
  rw [Unmarked, String.toList_ofList]
  exact fun hmem => hc (List.eq_of_mem_replicate hmem).symm

theorem Text.mem_of_mem_splitAtChar {separator c : Char} {cs piece : List Char}
    (hpiece : piece ∈ splitAtChar separator cs) (hc : c ∈ piece) : c ∈ cs := by
  induction cs generalizing piece with
  | nil =>
      cases List.mem_singleton.1 hpiece
      cases hc
  | cons d rest ih =>
      rw [splitAtChar] at hpiece
      split at hpiece
      · obtain rfl | hpiece := List.mem_cons.1 hpiece
        · cases hc
        · exact List.mem_cons_of_mem d (ih hpiece hc)
      · cases hpieces : splitAtChar separator rest with
        | nil =>
            rw [hpieces] at hpiece
            cases List.mem_singleton.1 hpiece
            exact List.mem_cons.2 (.inl (List.mem_singleton.1 hc))
        | cons first others =>
            rw [hpieces] at hpiece ih
            obtain rfl | hpiece := List.mem_cons.1 hpiece
            · obtain rfl | hc := List.mem_cons.1 hc
              · exact List.mem_cons_self
              · exact List.mem_cons_of_mem d (ih List.mem_cons_self hc)
            · exact List.mem_cons_of_mem d (ih (List.mem_cons_of_mem first hpiece) hc)

/-- No mark can start in a text of the sources. -/
def Sources.IsUnmarked (sources : Sources) : Prop := ∀ entry ∈ sources.entries, Unmarked entry.2

instance (sources : Sources) : Decidable sources.IsUnmarked :=
  inferInstanceAs (Decidable (∀ entry ∈ sources.entries, Unmarked entry.2))

/-- No mark can start in what a diagnostic says and in the name of its file. -/
@[mk_iff]
structure Diagnostic.IsUnmarked (diagnostic : Diagnostic) : Prop where
  message : Unmarked diagnostic.message
  code : ∀ code ∈ diagnostic.code, Unmarked code
  help : ∀ help ∈ diagnostic.help, Unmarked help
  file : ∀ location ∈ diagnostic.location, Unmarked location.file

instance (diagnostic : Diagnostic) : Decidable diagnostic.IsUnmarked :=
  decidable_of_iff' _ (Diagnostic.isUnmarked_iff diagnostic)

namespace Diagnostic

variable {diagnostic : Diagnostic} {sources : Sources}

theorem unmarked_spaces (n : Nat) : Unmarked (spaces n) := unmarked_replicate (by decide) n

theorem unmarked_carets (location : Location) : Unmarked (carets location) :=
  unmarked_append.2 ⟨unmarked_spaces _, unmarked_replicate (by decide) _⟩

theorem unmarked_sourceLine {location : Location} {line : String} (hsources : sources.IsUnmarked)
    (hline : sourceLine? sources location = some line) : Unmarked line := by
  obtain ⟨text, hfind, hline⟩ := Option.bind_eq_some_iff.1 hline
  split at hline
  · obtain ⟨piece, hpiece, rfl⟩ := List.mem_map.1 (List.mem_of_getElem? hline)
    obtain ⟨before, after, hentries, -⟩ := List.lookup_eq_some_iff.1 hfind
    have htext : Unmarked text := hsources (location.file, text) (by rw [hentries]; simp)
    intro hmem
    rw [String.toList_ofList] at hmem
    exact htext (Text.mem_of_mem_splitAtChar hpiece hmem)
  · cases hline

theorem unmarked_text {location : Location} (h : Unmarked location.file) :
    Unmarked location.text := by
  simp only [Location.text, unmarked_append]
  exact ⟨⟨⟨⟨h, by decide⟩, unmarked_toString _⟩, by decide⟩, unmarked_toString _⟩

theorem IsUnmarked.headline (h : diagnostic.IsUnmarked) :
    ∀ segment ∈ diagnostic.headline, Unmarked segment.text := by
  simp only [Diagnostic.headline, List.forall_mem_cons, List.not_mem_nil, false_imp_iff,
    implies_true, and_true, unmarked_append]
  refine ⟨⟨by decide, ?_⟩, by decide, h.message⟩
  cases hcode : diagnostic.code with
  | none => decide
  | some code =>
      dsimp only
      split
      · decide
      · exact unmarked_append.2
          ⟨unmarked_append.2 ⟨by decide, h.code code hcode⟩, by decide⟩

theorem IsUnmarked.adviceLines (h : diagnostic.IsUnmarked) (gutter : Nat) :
    ∀ row ∈ diagnostic.adviceLines gutter, ∀ segment ∈ row, Unmarked segment.text := by
  rw [Diagnostic.adviceLines]
  cases hhelp : diagnostic.help with
  | none => exact List.forall_mem_nil _
  | some help =>
      dsimp only
      split
      · exact List.forall_mem_nil _
      · simp only [List.forall_mem_cons, List.not_mem_nil, false_imp_iff, implies_true, and_true,
          unmarked_append]
        exact ⟨⟨unmarked_spaces _, by decide⟩, by decide, h.help help hhelp⟩

/-- No mark can start in what is laid out. -/
theorem IsUnmarked.layout (h : diagnostic.IsUnmarked) (hsources : sources.IsUnmarked) :
    ∀ row ∈ diagnostic.layout sources, ∀ segment ∈ row, Unmarked segment.text := by
  rw [Diagnostic.layout]
  cases hlocation : diagnostic.location with
  | none =>
      refine List.forall_mem_append.2 ⟨?_, h.adviceLines 1⟩
      refine List.forall_mem_cons.2 ⟨h.headline, ?_⟩
      decide
  | some location =>
      have hplace := unmarked_text (h.file location hlocation)
      dsimp only
      split
      · refine List.forall_mem_append.2 ⟨?_, h.adviceLines 1⟩
        refine List.forall_mem_cons.2 ⟨h.headline, ?_⟩
        simp only [List.forall_mem_cons, List.not_mem_nil, false_imp_iff, implies_true, and_true]
        exact ⟨by decide, hplace⟩
      · rename_i line hline
        refine List.forall_mem_append.2 ⟨?_, h.adviceLines _⟩
        refine List.forall_mem_cons.2 ⟨h.headline, ?_⟩
        have hbar : ∀ n, Unmarked (spaces n ++ "|") := fun n =>
          unmarked_append.2 ⟨unmarked_spaces n, by decide⟩
        simp only [List.forall_mem_cons, List.not_mem_nil, false_imp_iff, implies_true, and_true]
        refine ⟨⟨?_, hplace⟩, hbar _, ⟨?_, unmarked_sourceLine hsources hline⟩, hbar _,
          by decide, unmarked_carets location⟩
        · exact unmarked_append.2 ⟨unmarked_spaces _, by decide⟩
        · exact unmarked_append.2 ⟨unmarked_toString _, by decide⟩

end Diagnostic

/-! ## Reports -/

theorem Report.unmarked_summary (count : Nat) :
    ∀ segment ∈ summary count, Unmarked segment.text := by
  have hcount : Unmarked (toString count) := not_mem_toString (by decide) count
  simp only [summary, List.forall_mem_cons, List.not_mem_nil, false_imp_iff, implies_true,
    and_true, unmarked_append]
  refine ⟨by decide, ⟨⟨⟨by decide, hcount⟩, by decide⟩, ?_⟩, by decide⟩
  split <;> decide

/-- The blocks of lines that a report shows. -/
def Report.blocks (report : Report) : List (List (List Segment)) :=
  report.diagnostics.map (·.layout report.sources) ++
    if report.diagnostics.length = 0 then [] else [[summary report.diagnostics.length]]

/-- A report is its blocks with blank lines between them. -/
theorem Report.render_eq_blocks (report : Report) (colour : Bool) :
    report.render colour = "\n\n".intercalate (report.blocks.map (renderLines colour)) := by
  have hlast : ((if report.diagnostics.length = 0 then []
      else [[summary report.diagnostics.length]]).map (renderLines colour)) =
      if report.diagnostics.length = 0 then []
      else [renderLines colour [summary report.diagnostics.length]] := by
    split <;> rfl
  rw [blocks, List.map_append, List.map_map, hlast]
  rfl

/-- No mark can start in a diagnostic or in a text of a report. -/
@[mk_iff]
structure Report.IsUnmarked (report : Report) : Prop where
  diagnostics : ∀ diagnostic ∈ report.diagnostics, diagnostic.IsUnmarked
  sources : report.sources.IsUnmarked

instance (report : Report) : Decidable report.IsUnmarked :=
  decidable_of_iff' _ (Report.isUnmarked_iff report)

theorem Report.IsUnmarked.blocks {report : Report} (h : report.IsUnmarked) :
    ∀ block ∈ report.blocks, ∀ row ∈ block, ∀ segment ∈ row, Unmarked segment.text := by
  refine List.forall_mem_append.2 ⟨?_, ?_⟩
  · intro block hblock
    obtain ⟨diagnostic, hmem, rfl⟩ := List.mem_map.1 hblock
    exact (h.diagnostics diagnostic hmem).layout h.sources
  · split
    · exact List.forall_mem_nil _
    · exact List.forall_mem_singleton.2 (List.forall_mem_singleton.2 (unmarked_summary _))

/-- A report in colour shows the report without colour. -/
theorem Report.shows_render {report : Report} (h : report.IsUnmarked) :
    Shows (report.render true).toList (report.render false).toList := by
  rw [render_eq_blocks, render_eq_blocks]
  exact Shows.intercalate (by decide) fun block hblock =>
    shows_renderLines (h.blocks block hblock)

theorem exists_intercalate_cons (separator first : String) (others : List String) :
    ∃ rest, separator.intercalate (first :: others) = first ++ rest := by
  cases others with
  | nil => exact ⟨"", by simp⟩
  | cons second others => exact ⟨_, by rw [String.intercalate_cons_cons, String.append_assoc]⟩

/-- A segment in the style of an alarm starts with the marks of that style. -/
theorem Segment.exists_render_alarm (colour : Bool) (word text : String) :
    ∃ rest, Segment.render colour ⟨.alarm, word ++ text⟩ =
      (if colour then Style.alarm.marks else "") ++ word ++ rest := by
  cases colour with
  | false => exact ⟨text, by simp [render]⟩
  | true =>
      refine ⟨text ++ "\x1b[0m", ?_⟩
      simp only [render, String.append_assoc]
      rfl

/-- A diagnostic starts with the word that is set in the style of an alarm. -/
theorem Diagnostic.exists_render_eq (diagnostic : Diagnostic) (sources : Sources) (colour : Bool) :
    ∃ rest, diagnostic.render colour sources =
      (if colour then Style.alarm.marks else "") ++ "error" ++ rest := by
  obtain ⟨rows, hrows⟩ : ∃ rows, diagnostic.layout sources = diagnostic.headline :: rows := by
    rw [layout]
    split
    · exact ⟨_, rfl⟩
    · split <;> exact ⟨_, rfl⟩
  rw [render, renderLines, hrows, List.map_cons]
  obtain ⟨others, hothers⟩ := exists_intercalate_cons "\n"
    (String.join (diagnostic.headline.map (Segment.render colour)))
    (rows.map fun line => String.join (line.map (Segment.render colour)))
  rw [hothers, headline, List.map_cons, String.join_cons]
  obtain ⟨rest, hrest⟩ := Segment.exists_render_alarm colour "error" _
  rw [hrest, String.append_assoc, String.append_assoc]
  exact ⟨_, rfl⟩

/-- A report with problems starts with a mark in colour, and with a letter without. -/
theorem Report.head?_render {report : Report} (h : report.hasProblems = true) (colour : Bool) :
    (report.render colour).toList.head? = some (if colour then escapeChar else 'e') := by
  obtain ⟨sources, diagnostics⟩ := report
  cases diagnostics with
  | nil => cases h
  | cons diagnostic others =>
      rw [render_eq_blocks, blocks, List.map_cons, List.cons_append, List.map_cons]
      obtain ⟨after, hafter⟩ := exists_intercalate_cons "\n\n"
        (renderLines colour (diagnostic.layout sources)) _
      obtain ⟨rest, hrest⟩ := diagnostic.exists_render_eq sources colour
      rw [Diagnostic.render] at hrest
      rw [hafter, hrest]
      cases colour with
      | false => simp
      | true => simp [Style.marks, escapeChar]

/-- Colour is decoration: where no mark can start in what is said and quoted, a report in
colour without its marks is the report without colour. It has marks as soon as there is a
problem. -/
theorem Report.stripMarks_render (report : Report) (h : report.IsUnmarked) :
    stripMarks (report.render true).toList = (report.render false).toList ∧
      (report.render true = report.render false ↔ report.hasProblems = false) := by
  refine ⟨(shows_render h).strip_eq, ?_⟩
  constructor
  · intro heq
    cases hproblems : report.hasProblems with
    | false => rfl
    | true =>
        have hhead := head?_render hproblems true
        rw [heq, head?_render hproblems false] at hhead
        exact absurd hhead (by decide)
  · intro hnone
    obtain ⟨sources, diagnostics⟩ := report
    cases diagnostics with
    | nil => rfl
    | cons diagnostic others => cases hnone

/-- Problems of a line, of a line that is not there, of a file without a text and of no place
at all. What they say and quote looks like the ends of marks. -/
def thornReport : Report where
  sources := ⟨[("[0m.hbs", "<a>[31mm\n</b>;1m")]⟩
  diagnostics :=
    [⟨"closing tag </b>", some ⟨"[0m.hbs", 2, 1, 9, 13, 2, 5⟩, some "[1m", some "m: close <a>"⟩,
      ⟨"late", some ⟨"[0m.hbs", 9, -1, 0, 0, 9, -1⟩, none, some ""⟩,
      ⟨"lost", some ⟨"k.hbs", 1, 1, 0, 1, 1, 2⟩, some "", none⟩,
      ⟨";m", none, some "T0001", some "[36m"⟩]

theorem Report.stripMarks_render_thorn :
    thornReport.IsUnmarked ∧
      stripMarks (thornReport.render true).toList = (thornReport.render false).toList ∧
      (thornReport.render true = thornReport.render false ↔ thornReport.hasProblems = false) := by
  have h : thornReport.IsUnmarked := by decide
  exact ⟨h, stripMarks_render thornReport h⟩

end TemplateUsage
