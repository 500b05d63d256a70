import TemplateUsage.Proofs.Cutting
import TemplateUsage.Proofs.Words

set_option autoImplicit false

/-!
# Wrapping a template in an element

A template between an opening tag with block parameters and its closing tag is one
element around the statements of the template. Nothing in the template reaches into the
closing tag, and the usages inside are those of the template in a scope with the
parameters. Main statement: `Template.parse_wrap`.
-/

namespace TemplateUsage

namespace Scan

/-! ## Tags -/

theorem isTagNameChar_of_startsTagName {c : Char} (h : startsTagName c = true) :
    isTagNameChar c = true := by
  -- a character that ends a name is a blank or one of eight marks, and none starts a name
  by_contra hnot
  rw [Bool.not_eq_true, isTagNameChar, Bool.not_eq_false', Bool.or_eq_true] at hnot
  rcases hnot with hblank | hmark
  · simp only [startsTagName, isAlpha_of_isBlank hblank, Bool.false_or, Bool.or_eq_true,
      beq_iff_eq] at h
    rcases h with (rfl | rfl) | rfl <;> cases hblank
  · simp only [List.contains_iff_mem, List.mem_cons, List.not_mem_nil, or_false] at hmark
    rcases hmark with rfl | rfl | rfl | rfl | rfl | rfl | rfl | rfl <;> cases h

/-- The characters of a tag name. -/
theorem tagName_of_startTag? {tag : List Char}
    (h : startTag? ('<' :: tag) = some ⟨tag, tag.length + 1⟩) :
    (∃ c rest, tag = c :: rest ∧ startsTagName c = true) ∧ ∀ c ∈ tag, isTagNameChar c = true := by
  obtain ⟨c, rest, hcs, hname, hfound⟩ := startTag?_eq_some h
  obtain rfl : tag = c :: rest := (List.cons.inj hcs).2
  have hrest : rest.takeWhile isTagNameChar = rest :=
    (List.cons.inj (Found.mk.inj hfound).1).2.symm
  refine ⟨⟨c, rest, rfl, hname⟩, List.forall_mem_cons.2
    ⟨isTagNameChar_of_startsTagName hname, List.takeWhile_eq_self_iff.1 hrest⟩⟩

section

variable {tag : List Char} (htag : startTag? ('<' :: tag) = some ⟨tag, tag.length + 1⟩)

include htag

theorem inert_closingTag (hbar : '|' ∉ tag) : Inert ('<' :: '/' :: (tag ++ ['>'])) := by
  obtain ⟨-, hchars⟩ := tagName_of_startTag? htag
  have hnot : ∀ d : Char, isTagNameChar d = false → d ∉ ['<', '/', '>'] →
      d ∉ '<' :: '/' :: (tag ++ ['>']) := by
    intro d hd hmarks hmem
    simp only [List.mem_cons, List.mem_append, List.not_mem_nil, or_false, not_or] at hmarks hmem
    rcases hmem with h | h | h | h
    · exact hmarks.1 h
    · exact hmarks.2.1 h
    · rw [hchars d h] at hd
      cases hd
    · exact hmarks.2.2 h
  exact ⟨.inr ⟨_, rfl, rfl⟩, by simp [hbar], hnot _ rfl (by decide)⟩

/-- A tag is opened where its name is not followed by one more character of a name. -/
theorem takes_startTag (offset : Nat) {rest : List Char} (awaitsValue : Bool)
    (hrest : ∀ c ∈ rest.head?, isTagNameChar c = false) :
    State.Takes ⟨offset, '<' :: (tag ++ rest), [], awaitsValue⟩
      (.emit .startTag tag (tag.length + 1) [⟨.tag (String.ofList tag), offset⟩]) := by
  obtain ⟨⟨c, inner, rfl, hname⟩, hchars⟩ := tagName_of_startTag? htag
  have hfound : startTag? ('<' :: (c :: inner ++ rest)) =
      some ⟨c :: inner, (c :: inner).length + 1⟩ := by
    rw [List.cons_append, startTag?.eq_1, if_pos hname,
      takeWhile_run (fun d hd => hchars d (List.mem_cons_of_mem _ hd)) hrest]
  have hmarkup : ∀ {d : Char} {start : List Char}, startsTagName d = false →
      startsWith ('<' :: d :: start) ('<' :: (c :: inner ++ rest)) = false := by
    intro d start hd
    refine startsWith_eq_false ?_
    rintro tail heq
    simp only [List.cons_append, List.cons.injEq, true_and] at heq
    rw [heq.1, hd] at hname
    cases hname
  have htext : State.AtText ⟨offset, '<' :: (c :: inner ++ rest), [], awaitsValue⟩ :=
    ⟨rfl, rfl, rfl, hmarkup rfl, hmarkup rfl⟩
  exact State.Takes.startTag htext hfound

/-- A closing tag is taken in one step. -/
theorem takes_endTag (offset : Nat) (rest : List Char) (awaitsValue : Bool) :
    State.Takes ⟨offset, '<' :: '/' :: (tag ++ '>' :: rest), [], awaitsValue⟩
      (.emit .endTag tag (tag.length + 3) []) := by
  obtain ⟨⟨c, inner, hcons, -⟩, hchars⟩ := tagName_of_startTag? htag
  have hname : ∀ c ∈ tag, isEndNameChar c = true := by
    intro d hd
    have hchar := hchars d hd
    simp only [isTagNameChar, Bool.not_eq_true', Bool.or_eq_false_iff] at hchar
    have hbracket : d ≠ '>' := by
      rintro rfl
      cases hchar.2
    rw [isEndNameChar, hchar.1, Bool.false_or, Bool.not_eq_true', beq_eq_false_iff_ne]
    exact hbracket
  have hfound : endTag? ('<' :: '/' :: (tag ++ '>' :: rest)) = some ⟨tag, tag.length + 3⟩ := by
    have hne : tag ≠ [] := by
      rw [hcons]
      exact List.cons_ne_nil c inner
    have hblanks : Blanks [] := List.forall_mem_nil _
    have hparts := endTag?_eq_some hblanks hname hne hblanks rest
    rw [List.nil_append, List.nil_append] at hparts
    rw [hparts, List.length_nil, Option.some.injEq, Found.mk.injEq]
    exact ⟨rfl, by omega⟩
  exact @State.Takes.endTag ⟨offset, _, [], awaitsValue⟩ _ _ rfl rfl hfound

end

/-- Names between bars are found as block parameters. -/
theorem blockParams?_eq_some {names : List Char} (h : '|' ∉ names) (rest : List Char) :
    blockParams? ('a' :: 's' :: ' ' :: '|' :: (names ++ '|' :: rest)) =
      some ⟨names, names.length + 5⟩ := by
  have hnames : ∀ c ∈ names, (c != '|') = true := by
    intro c hc
    rw [bne_iff_ne]
    rintro rfl
    exact h hc
  have hbar : ∀ c ∈ ('|' :: rest).head?, (c != '|') = false := by
    rintro c ⟨⟩
    rfl
  have hblanks : (' ' :: '|' :: (names ++ '|' :: rest)).takeWhile Text.isBlank = [' '] := rfl
  have hafter : (' ' :: '|' :: (names ++ '|' :: rest)).dropWhile Text.isBlank =
      '|' :: (names ++ '|' :: rest) := rfl
  have hvalue := takeWhile_run hnames hbar
  have hclosing := dropWhile_run hnames hbar
  simp only [blockParams?, hblanks, hafter, hvalue, hclosing, List.isEmpty_cons,
    Bool.false_eq_true, if_false, Option.some.injEq, Found.mk.injEq, true_and,
    List.length_singleton]
  omega

/-! ## Runs over the tags -/

section

variable {tag : List Char} (htag : startTag? ('<' :: tag) = some ⟨tag, tag.length + 1⟩)

include htag

theorem run_startTag (offset : Nat) {rest : List Char} (awaitsValue : Bool)
    (hrest : ∀ c ∈ rest.head?, isTagNameChar c = false) :
    Run ⟨offset, '<' :: (tag ++ rest), [], awaitsValue⟩
      [⟨.startTag, tag, offset, offset + (tag.length + 1)⟩]
      ⟨offset + (tag.length + 1), rest, [⟨.tag (String.ofList tag), offset⟩], false⟩ := by
  refine .emit (List.cons_ne_nil _ _) (takes_startTag htag offset awaitsValue hrest).step_eq ?_
  rw [State.advance, List.drop_succ_cons, List.drop_left]
  exact .refl _

theorem run_endTag (offset : Nat) (rest : List Char) (awaitsValue : Bool) :
    Run ⟨offset, '<' :: '/' :: (tag ++ '>' :: rest), [], awaitsValue⟩
      [⟨.endTag, tag, offset, offset + (tag.length + 3)⟩]
      ⟨offset + (tag.length + 3), rest, [], false⟩ := by
  refine .emit (List.cons_ne_nil _ _) (takes_endTag htag offset rest awaitsValue).step_eq ?_
  have hdrop : ('<' :: '/' :: (tag ++ '>' :: rest)).drop (tag.length + 3) = rest := by
    rw [List.drop_succ_cons, List.drop_succ_cons, List.drop_length_add_append]
    rfl
  rw [State.advance, hdrop]
  exact .refl _

end

section

variable (offset : Nat) (rest : List Char) (name : String) (start : Nat) (outer : List OpenMode)

theorem run_blockParams {names : List Char} (hnames : '|' ∉ names) :
    Run ⟨offset, ' ' :: 'a' :: 's' :: ' ' :: '|' :: (names ++ '|' :: rest),
        ⟨.tag name, start⟩ :: outer, false⟩
      [⟨.blockParams, names, offset + 1, offset + 1 + (names.length + 5)⟩]
      ⟨offset + 1 + (names.length + 5), rest, ⟨.tag name, start⟩ :: outer, false⟩ := by
  have hskip : State.step ⟨offset, ' ' :: 'a' :: 's' :: ' ' :: '|' :: (names ++ '|' :: rest),
      ⟨.tag name, start⟩ :: outer, false⟩ = .skip 1 := rfl
  have hparams : State.step ⟨offset + 1, 'a' :: 's' :: ' ' :: '|' :: (names ++ '|' :: rest),
      ⟨.tag name, start⟩ :: outer, false⟩ =
      .emit .blockParams names (names.length + 5) (⟨.tag name, start⟩ :: outer) := by
    have hpart : State.AtPart ⟨offset + 1, 'a' :: 's' :: ' ' :: '|' :: (names ++ '|' :: rest),
        ⟨.tag name, start⟩ :: outer, false⟩ name := by
      refine ⟨⟨start, outer, rfl⟩, rfl, ?_, rfl, rfl⟩
      rintro c ⟨⟩
      decide
    exact (State.Takes.tagParams hpart (blockParams?_eq_some hnames rest)).step_eq
  have hdrop : ('a' :: 's' :: ' ' :: '|' :: (names ++ '|' :: rest)).drop (names.length + 5) =
      rest := by
    rw [List.drop_succ_cons, List.drop_succ_cons, List.drop_succ_cons, List.drop_succ_cons,
      List.drop_length_add_append]
    rfl
  have hemit : Run ⟨offset + 1, 'a' :: 's' :: ' ' :: '|' :: (names ++ '|' :: rest),
        ⟨.tag name, start⟩ :: outer, false⟩
      [⟨.blockParams, names, offset + 1, offset + 1 + (names.length + 5)⟩]
      ⟨offset + 1 + (names.length + 5), rest, ⟨.tag name, start⟩ :: outer, false⟩ := by
    refine .emit (List.cons_ne_nil _ _) hparams ?_
    rw [State.advance, hdrop]
    exact .refl _
  exact .skip (List.cons_ne_nil _ _) hskip hemit

theorem run_tagEnd (hvoid : name ∉ voidElements) :
    Run ⟨offset, '>' :: rest, ⟨.tag name, start⟩ :: outer, false⟩
      [⟨.tagEnd, ['>'], offset, offset + 1⟩] ⟨offset + 1, rest, outer, false⟩ := by
  have hstep : State.step ⟨offset, '>' :: rest, ⟨.tag name, start⟩ :: outer, false⟩ =
      .emit .tagEnd ['>'] 1 outer := by
    have hnot : voidElements.contains name = false := by simpa using hvoid
    rw [State.Takes.step_eq (.tagEnd rfl rfl rfl), hnot]
    rfl
  exact .emit (List.cons_ne_nil _ _) hstep (.refl _)

end

/-- The characters of an opening tag with block parameters. -/
def openingChars (tag names : List Char) : List Char :=
  '<' :: (tag ++ ' ' :: 'a' :: 's' :: ' ' :: '|' :: (names ++ ['|', '>']))

/-- The characters of a closing tag. -/
def closingChars (tag : List Char) : List Char := '<' :: '/' :: (tag ++ ['>'])

/-- A text that is scanned without a fault is scanned into the same pieces between the
tags of an element. -/
theorem Scanned.wrap {tag names text : List Char} {pieces : List Piece}
    (h : Scanned text pieces) (htag : startTag? ('<' :: tag) = some ⟨tag, tag.length + 1⟩)
    (hbar : '|' ∉ tag) (hvoid : String.ofList tag ∉ voidElements) (hnames : '|' ∉ names) :
    ∃ a b c d e f g i, Scanned (openingChars tag names ++ (text ++ closingChars tag))
      (⟨.startTag, tag, a, b⟩ :: ⟨.blockParams, names, c, d⟩ :: ⟨.tagEnd, ['>'], e, f⟩ ::
        (pieces.map (Piece.shift (openingChars tag names).length) ++ [⟨.endTag, tag, g, i⟩])) := by
  obtain ⟨final, hrun, hrest, hmodes⟩ := h
  have hblank : ∀ c ∈ (' ' :: 'a' :: 's' :: ' ' :: '|' ::
      (names ++ '|' :: '>' :: (text ++ closingChars tag))).head?, isTagNameChar c = false := by
    rintro c ⟨⟩
    rfl
  -- three runs: over the opening tag, over the text as it was, over the closing tag
  have hopening := ((run_startTag htag 0 false hblank).trans
    (run_blockParams _ _ _ _ _ hnames)).trans (run_tagEnd _ _ _ _ _ hvoid)
  have hoffset : 0 + (tag.length + 1) + 1 + (names.length + 5) + 1 =
      (openingChars tag names).length := by
    simp only [openingChars, List.length_cons, List.length_append, List.length_nil]
    omega
  rw [hoffset] at hopening
  have hread : (State.initial text).rest = text ++ final.rest := by
    rw [hrest, List.append_nil]
    rfl
  -- the closing tag is inert, so the scanner reads nothing else in front of it
  have hinside := (hrun.agree ((inert_closingTag htag hbar).replaces _) hmodes hread).shift
    (openingChars tag names).length
  have hclosing := run_endTag htag ((openingChars tag names).length + final.offset) []
    final.awaitsValue
  have htext : openingChars tag names ++ (text ++ closingChars tag) =
      '<' :: (tag ++ ' ' :: 'a' :: 's' :: ' ' :: '|' ::
        (names ++ '|' :: '>' :: (text ++ closingChars tag))) := by
    simp [openingChars]
  have hwhole := (hopening.trans hinside).trans hclosing
  rw [← htext] at hwhole
  exact ⟨_, _, _, _, _, _, _, _, _, hwhole, rfl, rfl⟩

end Scan

namespace Template

open Phrase Scan

/-- An opening tag with block parameters. -/
def openingTag (tag : String) (names : List String) : String :=
  "<" ++ tag ++ " as |" ++ " ".intercalate names ++ "|>"

/-- A closing tag. -/
def closingTag (tag : String) : String := "</" ++ tag ++ ">"

/-- A template as the content of an element that declares the names. -/
def wrap (tag : String) (names : List String) (source : String) : String :=
  openingTag tag names ++ source ++ closingTag tag

theorem toList_openingTag (tag : String) (names : List String) :
    (openingTag tag names).toList =
      openingChars tag.toList ([' '].intercalate (names.map String.toList)) := by
  simp [openingTag, openingChars, String.toList_append, String.toList_intercalate]

theorem toList_wrap (tag : String) (names : List String) (source : String) :
    (wrap tag names source).toList =
      openingChars tag.toList ([' '].intercalate (names.map String.toList)) ++
        (source.toList ++ closingChars tag.toList) := by
  rw [wrap, String.toList_append, String.toList_append, toList_openingTag, List.append_assoc]
  simp [closingTag, closingChars, String.toList_append]

variable {file source tag : String} {names : List String}

/-- The node of an element whose only part is its block parameters. -/
theorem buildStatements_element {content : List Statement} {nodes : List Node}
    (hcontent : buildStatements file content = .ok nodes) (tag label : String)
    (span paramsSpan endSpan : Span) (tagEnd : Lexeme) :
    buildStatements file
        [.element ⟨⟨tag, span⟩, [.params ⟨label, paramsSpan⟩]⟩ tagEnd content ⟨tag, endSpan⟩] =
      .ok [.element (some ((span.cover endSpan).inFile file)) tag [] []
        ((Text.words label.toList).map String.ofList) nodes false] := by
  rw [buildStatements, Statement.build, hcontent]
  simp [buildStatements, elementNode, TagPart.build, BuiltPart.attribute?, BuiltPart.modifier?,
    BuiltPart.names, paramNames, bind, Except.bind, pure, Except.pure]

/-- A text that is scanned into an opening tag, its content and a closing tag is an
element. -/
theorem parse_of_scanned_element {text label : List Char} {inside : List Piece}
    {a b c d e f g i : Nat} {content : List Statement} {nodes : List Node}
    (h : Scanned text (⟨.startTag, tag.toList, a, b⟩ :: ⟨.blockParams, label, c, d⟩ ::
      ⟨.tagEnd, ['>'], e, f⟩ :: (inside ++ [⟨.endTag, tag.toList, g, i⟩])))
    (htokens : statementTokens content = inside.map (Piece.token (Lines.ofText text)))
    (hbuild : buildStatements file content = .ok nodes) :
    ∃ rootLocation elementLocation, parse file (String.ofList text) =
      .ok (.template rootLocation [.element elementLocation tag [] []
        ((Text.words label).map String.ofList) nodes false]) := by
  have hlines : ∀ kind value start stop,
      Piece.token (Lines.ofText text) ⟨kind, value, start, stop⟩ =
        ⟨kind, ⟨String.ofList value, (Lines.ofText text).span start stop⟩⟩ := fun _ _ _ _ => rfl
  have helement := buildStatements_element hbuild tag (String.ofList label)
    ((Lines.ofText text).span a b) ((Lines.ofText text).span c d) ((Lines.ofText text).span g i)
    ⟨String.ofList ['>'], (Lines.ofText text).span e f⟩
  rw [String.toList_ofList] at helement
  refine ⟨_, _, parse_of_scanned h ?_ helement⟩
  rw [statementTokens, statementTokens, List.append_nil, Statement.tokens, htokens,
    List.map_cons, List.map_cons, List.map_cons, List.map_append, List.map_singleton, hlines,
    hlines, hlines, hlines, String.ofList_toList]
  rfl

theorem collect_element (rootLocation elementLocation : Option Location) (tag : String)
    (names : List String) (members : List Node) (scope : Scope) :
    (Node.template rootLocation
        [.element elementLocation tag [] [] names members false]).collect scope =
      (Usage.ofPath? tag .tagName scope .element elementLocation).toList ++
        Node.walkAll members (scope.push names) := by
  simp [Node.collect_template, Node.walkAll, Node.walk]

theorem not_mem_intercalate {c : Char} {separator : List Char} {pieces : List (List Char)}
    (hseparator : c ∉ separator) (h : ∀ piece ∈ pieces, c ∉ piece) :
    c ∉ separator.intercalate pieces := by
  induction pieces with
  | nil =>
      rw [List.intercalate_nil]
      exact List.not_mem_nil
  | cons piece rest ih =>
      obtain ⟨hpiece, hrest⟩ := List.forall_mem_cons.1 h
      cases rest with
      | nil => rwa [List.intercalate_singleton]
      | cons next others =>
          rw [List.intercalate_cons_cons, List.mem_append, List.mem_append, not_or, not_or]
          exact ⟨⟨hpiece, hseparator⟩, ih hrest⟩

theorem bar_not_mem_label (h : ∀ name ∈ names, IsParamName name) :
    '|' ∉ [' '].intercalate (names.map String.toList) := by
  refine not_mem_intercalate (by decide) ?_
  rw [List.forall_mem_map]
  intro name hname hbar
  exact ((h name hname).2 '|' hbar).2 rfl

/-- The names are read back from the text between the bars. -/
theorem words_label (h : ∀ name ∈ names, IsParamName name) :
    (Text.words ([' '].intercalate (names.map String.toList))).map String.ofList = names := by
  have hwords : Text.words ([' '].intercalate (names.map String.toList)) =
      names.map String.toList := by
    refine Text.words_intercalate ?_
    rw [List.forall_mem_map]
    intro name hname
    obtain ⟨hne, hchars⟩ := h name hname
    exact ⟨fun hnil => hne (String.toList_eq_nil_iff.1 hnil), fun c hc => (hchars c hc).1⟩
  rw [hwords, List.map_map]
  simp

/-- Where a point of a template stands when the template is wrapped. -/
def wrapPoint (tag : String) (names : List String) (source : String) : Point → Point :=
  Point.translate (Point.counted (wrap tag names source).toList (openingTag tag names).length)

/-- The tokens inside an element are those of its content, moved along. -/
theorem token_wrapPoint {piece : Piece} (hstart : piece.start ≤ source.toList.length)
    (hstop : piece.stop ≤ source.toList.length) :
    (piece.shift (openingTag tag names).toList.length).token
        (Lines.ofText (wrap tag names source).toList) =
      (piece.token (Lines.ofText source.toList)).relocate (wrapPoint tag names source) := by
  have hwrap : (wrap tag names source).toList =
      (openingTag tag names).toList ++ (source.toList ++ closingChars tag.toList) := by
    rw [toList_wrap, toList_openingTag]
  have hle : ∀ {offset : Nat}, offset ≤ source.toList.length →
      offset ≤ (source.toList ++ closingChars tag.toList).length := by
    intro offset hoffset
    rw [List.length_append]
    omega
  rw [wrapPoint, ← String.length_toList, hwrap, Piece.token_shift _ (hle hstart) (hle hstop),
    Piece.token_append_left hstart hstop]

/-- A template between an opening tag with block parameters and its closing tag is one
element of that name, with the names as its parameters and the statements of the template
as its children, moved to where the opening tag ends. Its usages are the usage of the tag
in the empty scope, if it has one, followed by the usages of the template in a scope with
the names, moved along. -/
theorem parse_wrap {location : Option Location} {members : List Node}
    (h : parse file source = .ok (.template location members))
    (hnames : ∀ name ∈ names, IsParamName name)
    (htag : startTag? ('<' :: tag.toList) = some ⟨tag.toList, tag.length + 1⟩)
    (hbar : '|' ∉ tag.toList) (hvoid : tag ∉ voidElements) :
    ∃ root rootLocation elementLocation,
      root = .template rootLocation [.element elementLocation tag [] [] names
        (members.map (Node.relocate (wrapPoint tag names source))) false] ∧
      parse file (wrap tag names source) = .ok root ∧
      root.collect Scope.empty =
        (Usage.ofPath? tag .tagName Scope.empty .element elementLocation).toList ++
          ((Node.template location members).collect (Scope.empty.push names)).map
            (Usage.relocate (wrapPoint tag names source)) := by
  obtain ⟨hscan, statements, htokens, hbuild⟩ := parse_eq_ok_iff.1 h
  rw [buildTemplate] at hbuild
  obtain ⟨nodes, hnodes, hbuild⟩ := exists_of_bind_eq_ok hbuild
  cases hbuild
  obtain ⟨pieces, hscanned, hpieces⟩ := exists_scanned hscan
  rw [hpieces] at htokens
  rw [← String.length_toList] at htag
  have hvoid' : String.ofList tag.toList ∉ voidElements := by rwa [String.ofList_toList]
  obtain ⟨a, b, c, d, e, f, g, i, hwrapped⟩ :=
    hscanned.wrap htag hbar hvoid' (bar_not_mem_label hnames)
  rw [← toList_wrap, ← toList_openingTag] at hwrapped
  -- the pieces inside are those of the template, so their tokens are its tokens moved along
  obtain ⟨content, hmoved, hbuilt⟩ :=
    exists_built_of_relocate (wrapPoint tag names source) hnodes
  have hcontent : statementTokens content =
      (pieces.map (Piece.shift (openingTag tag names).toList.length)).map
        (Piece.token (Lines.ofText (wrap tag names source).toList)) := by
    rw [hmoved, htokens, List.map_map, List.map_map]
    refine List.map_congr_left fun piece hpiece => ?_
    obtain ⟨hstart, hstop⟩ := hscanned.bounds piece hpiece
    exact (token_wrapPoint hstart hstop).symm
  obtain ⟨rootLocation, elementLocation, hparse⟩ :=
    parse_of_scanned_element hwrapped hcontent hbuilt
  rw [String.ofList_toList, words_label hnames] at hparse
  refine ⟨_, rootLocation, elementLocation, rfl, hparse, ?_⟩
  rw [collect_element, Node.collect_template, ← Node.relocateAll_eq_map, Node.walkAll_relocate]

/-- A mustache, and an escaped one that is not closed. -/
def openEscape : String := "\x7b\x7bitem.name\x7d\x7d\n\\\x7b\x7bb"

/-- The element around the text declares the head of the path in its mustache. -/
theorem parse_wrap_openEscape :
    ∃ location members, parse "page" openEscape = .ok (.template location members) ∧
      (∀ name ∈ ["item", "index"], IsParamName name) ∧
      startTag? ('<' :: "Card".toList) = some ⟨"Card".toList, "Card".length + 1⟩ ∧
      '|' ∉ "Card".toList ∧ "Card" ∉ voidElements ∧
      ∃ root rootLocation elementLocation,
        root = .template rootLocation [.element elementLocation "Card" [] [] ["item", "index"]
          (members.map (Node.relocate (wrapPoint "Card" ["item", "index"] openEscape))) false] ∧
        parse "page" (wrap "Card" ["item", "index"] openEscape) = .ok root ∧
        root.collect Scope.empty =
          (Usage.ofPath? "Card" .tagName Scope.empty .element elementLocation).toList ++
            ((Node.template location members).collect (Scope.empty.push ["item", "index"])).map
              (Usage.relocate (wrapPoint "Card" ["item", "index"] openEscape)) := by
  have hok : (parse "page" openEscape).isOk = true := by decide +kernel
  obtain ⟨root, hroot⟩ := exists_of_isOk hok
  obtain ⟨location, members, rfl⟩ := exists_template hroot
  have hnames : ∀ name ∈ ["item", "index"], IsParamName name := by
    simp [IsParamName, Text.isBlank]
  have htag : startTag? ('<' :: "Card".toList) = some ⟨"Card".toList, "Card".length + 1⟩ := by
    decide
  have hbar : '|' ∉ "Card".toList := by decide
  have hvoid : "Card" ∉ voidElements := by decide
  exact ⟨location, members, hroot, hnames, htag, hbar, hvoid,
    parse_wrap hroot hnames htag hbar hvoid⟩

end Template

end TemplateUsage
