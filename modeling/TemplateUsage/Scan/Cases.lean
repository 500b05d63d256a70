import TemplateUsage.Scan.Step

set_option autoImplicit false

/-!
# What a step can do

The steps of the scanner one by one, each with the state it is taken in (`State.Takes`) and
with the words of expressions (`Word`) and the openings at braces (`AtBraces`) apart. Main
statement: `State.takes_step`, that the scanner takes one of them. What holds of every step is
proved from it by cases.
-/

namespace TemplateUsage.Scan

theorem startsWith_iff {start cs : List Char} : startsWith start cs = true ↔ start <+: cs :=
  List.isPrefixOf_iff_prefix

theorem startsWith_eq_false {start cs : List Char} (h : ∀ rest, cs ≠ start ++ rest) :
    startsWith start cs = false := by
  rw [Bool.eq_false_iff, ne_eq, startsWith_iff]
  rintro ⟨rest, rfl⟩
  exact h rest rfl

/-! ## Words -/

/-- A word of an expression, by the pattern that finds it. -/
inductive Word (cs : List Char) : Kind → Found → Prop where
  | params {found : Found} : blockParams? cs = some found → Word cs .blockParams found
  | string {found : Found} : string? cs = some found → Word cs .string found
  | key {found : Found} : hashKey? cs = some found → Word cs .hashKey found
  | number {found : Found} : number? cs = some found → Word cs .number found
  | keyword {word : List Char} {kind : Kind} {found : Found} :
      (word, kind) ∈ keywords → word? word cs = some found → Word cs kind found
  | path {found : Found} : path? cs = some found → Word cs .path found

/-- Every word the scanner finds is one of the sorts of `Word`. -/
theorem word_of_wordStep? {cs : List Char} {kind : Kind} {found : Found}
    (h : wordStep? cs = some (kind, found)) : Word cs kind found := by
  simp only [wordStep?, Option.orElse_eq_or, Option.or_eq_some_iff, Option.map_eq_some_iff,
    Option.map_eq_none_iff, Prod.mk.injEq, Option.orElse_eq_orElse] at h
  rcases h with ⟨_, h, rfl, rfl⟩ | ⟨-, ⟨_, h, rfl, rfl⟩ | ⟨-, ⟨_, h, rfl, rfl⟩ |
    ⟨-, ⟨_, h, rfl, rfl⟩ | ⟨-, h | ⟨-, _, h, rfl, rfl⟩⟩⟩⟩⟩
  · exact .params h
  · exact .string h
  · exact .key h
  · exact .number h
  · obtain ⟨⟨word, k⟩, hmem, hfound⟩ := List.exists_of_findSome?_eq_some h
    obtain ⟨_, hword, heq⟩ := Option.map_eq_some_iff.1 hfound
    cases heq
    exact .keyword hmem hword
  · exact .path h

/-- The words with a meaning of their own are words, of four kinds. -/
theorem mem_keywords {word : List Char} {kind : Kind} (h : (word, kind) ∈ keywords) :
    word ≠ [] ∧ (kind = .boolean ∨ kind = .null ∨ kind = .undefined) := by
  simp only [keywords, List.mem_cons, List.not_mem_nil, or_false, Prod.mk.injEq] at h
  rcases h with ⟨rfl, rfl⟩ | ⟨rfl, rfl⟩ | ⟨rfl, rfl⟩ | ⟨rfl, rfl⟩ <;> simp

/-! ## Braces -/

/-- Two opening braces stand before `inner`, with a mark after them or without. -/
structure Braces (cs left inner : List Char) : Prop where
  text : cs = '\x7b' :: '\x7b' :: (left ++ inner)
  mark : left = ['~'] ∨ left = [] ∧ startsWith ['~'] inner = false

/-- What `more` makes of the braces and the mark before it, where `rest` comes after it. -/
inductive Opener : Kind → Closer → List Char → List Char → Prop where
  | markedTriple (rest : List Char) : Opener .openTriple .triple ['\x7b', '~'] rest
  | triple {rest : List Char} :
      startsWith ['~'] rest = false → Opener .openTriple .triple ['\x7b'] rest
  | block (rest : List Char) : Opener .openBlock .double ['#'] rest
  | endBlock (rest : List Char) : Opener .openEndBlock .double ['/'] rest
  | otherwise {rest : List Char} : isElse ('e' :: 'l' :: 's' :: 'e' :: rest) = true →
      Opener .openElse .double ['e', 'l', 's', 'e'] rest
  | plain {rest : List Char} :
      (∀ c ∈ rest.head?, c ∉ ['\x7b', '!', '>', '^', '#', '/']) → isElse rest = false →
      Opener .openCurly .double [] rest

/-- The two forms of a comment in braces, with the dashes that begin it and what stops it. -/
inductive CurlyComment : CommentForm → List Char → (List Char → Option Nat) → List Char → Prop where
  | long (tail : List Char) : CurlyComment .long ['-', '-'] longCommentEnd? tail
  | short {tail : List Char} :
      startsWith ['-', '-'] tail = false → CurlyComment .short [] shortCommentEnd? tail

/-- The steps at two opening braces. -/
inductive AtBraces (offset : Nat) (cs : List Char) (modes : List OpenMode) : Step → Prop where
  | opener {left more rest : List Char} {kind : Kind} {closer : Closer} :
      Braces cs left (more ++ rest) → Opener kind closer more rest →
      AtBraces offset cs modes (.emit kind ('\x7b' :: '\x7b' :: (left ++ more))
        (left.length + 2 + more.length) (⟨.expression closer, offset⟩ :: modes))
  | comment {left dashes tail value : List Char} {form : CommentForm}
      {stop : List Char → Option Nat} {width : Nat} :
      Braces cs left ('!' :: (dashes ++ tail)) → CurlyComment form dashes stop tail →
      breakAt stop tail = some (value, width) →
      AtBraces offset cs modes (.emit .curlyComment value
        (left.length + 3 + dashes.length + value.length + width) modes)
  | unterminated {left dashes tail : List Char} {form : CommentForm}
      {stop : List Char → Option Nat} :
      Braces cs left ('!' :: (dashes ++ tail)) → CurlyComment form dashes stop tail →
      breakAt stop tail = none →
      AtBraces offset cs modes
        (.fail (.unterminatedComment form) (left.length + 3 + dashes.length))
  | partialCall {left tail : List Char} : Braces cs left ('>' :: tail) →
      AtBraces offset cs modes (.fail .partialCall (left.length + 3))
  | caretSection {left tail : List Char} : Braces cs left ('^' :: tail) →
      AtBraces offset cs modes (.fail .caretSection (left.length + 3))

/-- After two opening braces stands an optional mark. -/
theorem exists_braces {cs : List Char} (h : atCurly cs = true) :
    ∃ left inner, Braces cs left inner ∧
      (if startsWith ['~'] (cs.drop 2) then 3 else 2) = left.length + 2 := by
  obtain ⟨tail, rfl⟩ := startsWith_iff.1 h
  show ∃ left inner, _ ∧ (if startsWith ['~'] tail then 3 else 2) = _
  cases hmark : startsWith ['~'] tail with
  | true =>
      obtain ⟨inner, rfl⟩ := startsWith_iff.1 hmark
      exact ⟨['~'], inner, ⟨rfl, .inl rfl⟩, rfl⟩
  | false => exact ⟨[], tail, ⟨rfl, .inr ⟨rfl, hmark⟩⟩, rfl⟩

section Braces

variable {cs left inner : List Char}

/-- Past the braces and the mark comes the inside of the braces. -/
theorem Braces.drop_eq (h : Braces cs left inner) : cs.drop (left.length + 2) = inner := by
  rw [h.text]
  show (left ++ inner).drop left.length = inner
  exact List.drop_left

/-- The braces, their mark and what follows them are what is taken of the text. -/
theorem Braces.take_eq {more rest : List Char} (h : Braces cs left (more ++ rest)) :
    cs.take (left.length + 2 + more.length) = '\x7b' :: '\x7b' :: (left ++ more) := by
  have hlength : left.length + 2 + more.length = ('\x7b' :: '\x7b' :: (left ++ more)).length := by
    simp only [List.length_append, List.length_cons]
    omega
  have htext : cs = ('\x7b' :: '\x7b' :: (left ++ more)) ++ rest := by simp [h.text]
  rw [hlength, htext, List.take_left]

theorem Braces.drop_comment {dashes tail : List Char}
    (h : Braces cs left ('!' :: (dashes ++ tail))) :
    cs.drop (left.length + 3 + dashes.length) = tail := by
  have hlength : left.length + 3 + dashes.length =
      ('\x7b' :: '\x7b' :: (left ++ '!' :: dashes)).length := by
    simp only [List.length_append, List.length_cons]
    omega
  have htext : cs = ('\x7b' :: '\x7b' :: (left ++ '!' :: dashes)) ++ tail := by simp [h.text]
  rw [hlength, htext, List.drop_left]

variable {offset : Nat} {modes : List OpenMode}

theorem Braces.opener {more rest : List Char} {kind : Kind} {closer : Closer}
    (h : Braces cs left (more ++ rest)) (hopener : Opener kind closer more rest) {width : Nat}
    (hwidth : width = left.length + 2 + more.length) :
    AtBraces offset cs modes
      (.emit kind (cs.take width) width (⟨.expression closer, offset⟩ :: modes)) := by
  rw [hwidth, h.take_eq]
  exact .opener h hopener

theorem Braces.comment {dashes tail : List Char} {form : CommentForm}
    {stop : List Char → Option Nat} (h : Braces cs left ('!' :: (dashes ++ tail)))
    (hcomment : CurlyComment form dashes stop tail) :
    AtBraces offset cs modes
      (Scan.comment form .curlyComment stop (left.length + 3 + dashes.length) cs modes) := by
  unfold Scan.comment
  rw [h.drop_comment]
  split
  · exact .comment h hcomment ‹_›
  · exact .unterminated h hcomment ‹_›

/-- At two opening braces the scanner takes one of the steps. -/
theorem atBraces_openCurly (h : atCurly cs = true) :
    AtBraces offset cs modes (openCurly offset cs modes) := by
  obtain ⟨left, inner, hbraces, hwidth⟩ := exists_braces h
  unfold openCurly
  rw [hwidth]
  dsimp only
  rw [hbraces.drop_eq]
  split
  · exact Braces.opener hbraces (.markedTriple _) rfl
  · rename_i rest hmark
    exact Braces.opener hbraces (.triple (startsWith_eq_false hmark)) rfl
  · exact Braces.comment hbraces (.long _)
  · rename_i rest hlong
    exact Braces.comment hbraces (.short (startsWith_eq_false hlong))
  · exact .partialCall hbraces
  · exact .caretSection hbraces
  · exact Braces.opener hbraces (.block _) rfl
  · exact Braces.opener hbraces (.endBlock _) rfl
  · rename_i hmark htriple hlong hshort hpartial hcaret hblock hend
    split
    · rename_i helse
      obtain ⟨rest, rfl⟩ : ∃ rest, inner = 'e' :: 'l' :: 's' :: 'e' :: rest := by
        unfold isElse at helse
        split at helse
        · exact ⟨_, rfl⟩
        · cases helse
      exact Braces.opener hbraces (.otherwise helse) rfl
    · rename_i helse
      have hplain : Braces cs left ([] ++ inner) := hbraces
      refine hplain.opener (.plain ?_ (eq_false_of_ne_true helse)) rfl
      intro c hc
      obtain ⟨rest, rfl⟩ := List.head?_eq_some_iff.1 hc
      simp_all

end Braces

/-! ## Steps -/

/-- The scanner is in content, where neither braces nor a comment nor a closing tag begins. -/
structure State.AtText (state : State) : Prop where
  modes : state.modes = []
  escape : startsWith ['\\', '\x7b', '\x7b'] state.rest = false
  braces : atCurly state.rest = false
  comment : startsWith ['<', '!', '-', '-'] state.rest = false
  closing : startsWith ['<', '/'] state.rest = false

/-- The scanner is at the value of an attribute, which begins neither with a quote nor with
braces. -/
structure State.AtValue (state : State) : Prop where
  modes : ∃ name start outer, state.modes = ⟨.tag name, start⟩ :: outer
  awaitsValue : state.awaitsValue = true
  head : ∀ c ∈ state.rest.head?, Text.isBlank c = false ∧ c ≠ '"' ∧ c ≠ '\''
  braces : atCurly state.rest = false

/-- The scanner is between the parts of a tag, where neither the tag ends nor a value is
given and braces do not begin. -/
structure State.AtPart (state : State) (name : String) : Prop where
  modes : ∃ start outer, state.modes = ⟨.tag name, start⟩ :: outer
  awaitsValue : state.awaitsValue = false
  head : ∀ c ∈ state.rest.head?, Text.isBlank c = false ∧ c ≠ '>' ∧ c ≠ '='
  closing : startsWith ['/', '>'] state.rest = false
  braces : atCurly state.rest = false

/-- The scanner is in an expression that does not end here, at a character that is neither a
blank nor a parenthesis. -/
structure State.AtWord (state : State) (c : Char) : Prop where
  modes : ∃ closer start outer, state.modes = ⟨.expression closer, start⟩ :: outer ∧
    closer? closer state.rest = none
  head : state.rest.head? = some c
  solid : Text.isBlank c = false
  paren : c ≠ '(' ∧ c ≠ ')'

/-- Where two opening braces begin something: anywhere but in an expression. A quoted value
ends first if braces are its quotes. -/
def State.AllowsBraces (state : State) : Prop :=
  match state.modes with
  | ⟨.expression _, _⟩ :: _ => False
  | ⟨.quoted quote, _⟩ :: _ => quote ≠ '\x7b'
  | _ => True

/-- The step that is taken in the state. -/
inductive State.Takes (state : State) : Step → Prop where
  | braces {step : Step} : state.AllowsBraces → atCurly state.rest = true →
      AtBraces state.offset state.rest state.modes step → Takes state step
  -- content
  | escape {tail : List Char} : state.modes = [] → state.rest = '\\' :: '\x7b' :: '\x7b' :: tail →
      Takes state (.emit .text (escapedRun ('\x7b' :: '\x7b' :: tail))
        ((escapedRun ('\x7b' :: '\x7b' :: tail)).length + 1) state.modes)
  | htmlComment {tail value : List Char} {width : Nat} : state.modes = [] →
      state.rest = '<' :: '!' :: '-' :: '-' :: tail →
      breakAt (stopAt ['-', '-', '>']) tail = some (value, width) →
      Takes state (.emit .htmlComment value (4 + value.length + width) state.modes)
  | openHtmlComment {tail : List Char} : state.modes = [] →
      state.rest = '<' :: '!' :: '-' :: '-' :: tail →
      breakAt (stopAt ['-', '-', '>']) tail = none →
      Takes state (.fail (.unterminatedComment .html) 4)
  | endTag {tail : List Char} {found : Found} : state.modes = [] →
      state.rest = '<' :: '/' :: tail → endTag? state.rest = some found →
      Takes state (.emit .endTag found.value found.width state.modes)
  | malformedEndTag {tail : List Char} : state.modes = [] → state.rest = '<' :: '/' :: tail →
      endTag? state.rest = none → Takes state (.fail .malformedClosingTag 2)
  | startTag {found : Found} : state.AtText → startTag? state.rest = some found →
      Takes state (.emit .startTag found.value found.width
        (⟨.tag (String.ofList found.value), state.offset⟩ :: state.modes))
  | text : state.AtText → startTag? state.rest = none →
      Takes state (.emit .text (textRun state.rest) (textRun state.rest).length state.modes)
  -- a quoted value
  | quoteClose {quote : Char} {start : Nat} {outer : List OpenMode} {tail : List Char} :
      state.modes = ⟨.quoted quote, start⟩ :: outer → state.rest = quote :: tail →
      Takes state (.emit .quoteClose [quote] 1 outer)
  | quotedText {quote : Char} {start : Nat} {outer : List OpenMode} :
      state.modes = ⟨.quoted quote, start⟩ :: outer → startsWith [quote] state.rest = false →
      atCurly state.rest = false →
      Takes state (.emit .attributeText (quotedRun quote state.rest)
        (quotedRun quote state.rest).length state.modes)
  -- a tag
  | tagBlanks {name : String} {start : Nat} {outer : List OpenMode} :
      state.modes = ⟨.tag name, start⟩ :: outer →
      0 < (state.rest.takeWhile Text.isBlank).length →
      Takes state (.skip (state.rest.takeWhile Text.isBlank).length)
  | quoteOpen {name : String} {start : Nat} {outer : List OpenMode} {quote : Char}
      {tail : List Char} : state.modes = ⟨.tag name, start⟩ :: outer →
      state.awaitsValue = true → quote = '"' ∨ quote = '\'' → state.rest = quote :: tail →
      Takes state (.emit .quoteOpen [quote] 1 (⟨.quoted quote, state.offset⟩ :: state.modes))
  | value {found : Found} : state.AtValue → unquotedValue? state.rest = some found →
      Takes state (.emit .attributeText found.value found.width state.modes)
  | missingValue : state.AtValue → unquotedValue? state.rest = none →
      Takes state (.fail .missingValue 1)
  | selfClose {name : String} {start : Nat} {outer : List OpenMode} {tail : List Char} :
      state.modes = ⟨.tag name, start⟩ :: outer → state.awaitsValue = false →
      state.rest = '/' :: '>' :: tail → Takes state (.emit .tagSelfClose ['/', '>'] 2 outer)
  | tagEnd {name : String} {start : Nat} {outer : List OpenMode} {tail : List Char} :
      state.modes = ⟨.tag name, start⟩ :: outer → state.awaitsValue = false →
      state.rest = '>' :: tail →
      Takes state
        (.emit (if voidElements.contains name then .voidTagEnd else .tagEnd) ['>'] 1 outer)
  | equals {name : String} {start : Nat} {outer : List OpenMode} {tail : List Char} :
      state.modes = ⟨.tag name, start⟩ :: outer → state.awaitsValue = false →
      state.rest = '=' :: tail → Takes state (.emit .equals ['='] 1 state.modes)
  | tagParams {name : String} {found : Found} : state.AtPart name →
      blockParams? state.rest = some found →
      Takes state (.emit .blockParams found.value found.width state.modes)
  | attributeName {name : String} {found : Found} : state.AtPart name →
      blockParams? state.rest = none → attributeName? state.rest = some found →
      Takes state (.emit .attributeName found.value found.width state.modes)
  | strayInTag {name : String} {c : Char} : state.AtPart name → state.rest.head? = some c →
      blockParams? state.rest = none → attributeName? state.rest = none →
      Takes state (.fail (.strayInTag c name) 1)
  | tagOver {name : String} {start : Nat} {outer : List OpenMode} :
      state.modes = ⟨.tag name, start⟩ :: outer → state.awaitsValue = false →
      state.rest = [] → Takes state (.skip 0)
  -- an expression
  | blanks {closer : Closer} {start : Nat} {outer : List OpenMode} :
      state.modes = ⟨.expression closer, start⟩ :: outer →
      0 < (state.rest.takeWhile Text.isBlank).length →
      Takes state (.skip (state.rest.takeWhile Text.isBlank).length)
  | closer {closer : Closer} {start : Nat} {outer : List OpenMode} {found : Found} :
      state.modes = ⟨.expression closer, start⟩ :: outer →
      closer? closer state.rest = some found →
      Takes state (.emit (if closer = .triple then .closeTriple else .closeCurly) found.value
        found.width outer)
  | openParen {closer : Closer} {start : Nat} {outer : List OpenMode} {tail : List Char} :
      state.modes = ⟨.expression closer, start⟩ :: outer → state.rest = '(' :: tail →
      Takes state (.emit .openParen ['('] 1 state.modes)
  | closeParen {closer : Closer} {start : Nat} {outer : List OpenMode} {tail : List Char} :
      state.modes = ⟨.expression closer, start⟩ :: outer → state.rest = ')' :: tail →
      Takes state (.emit .closeParen [')'] 1 state.modes)
  | word {c : Char} {kind : Kind} {found : Found} : state.AtWord c →
      wordStep? state.rest = some (kind, found) →
      Takes state (.emit kind found.value found.width state.modes)
  | strayInMustache {c : Char} : state.AtWord c → wordStep? state.rest = none →
      Takes state (.fail (.strayInMustache c) 1)
  | mustacheOver {closer : Closer} {start : Nat} {outer : List OpenMode} :
      state.modes = ⟨.expression closer, start⟩ :: outer → state.rest = [] →
      Takes state (.skip 0)

section

variable {state : State}

/-- Between statements, every step is one of the cases. The tests are made in the order of the
scanner, so each case has the failure of those before it. -/
theorem takes_contentStep (hmodes : state.modes = []) :
    state.Takes (contentStep state.offset state.rest state.modes) := by
  unfold contentStep
  split
  · obtain ⟨tail, hrest⟩ := startsWith_iff.1 ‹_›
    rw [← hrest]
    exact .escape hmodes hrest.symm
  rename_i hescape
  split
  · refine .braces ?_ ‹_› (atBraces_openCurly ‹_›)
    rw [State.AllowsBraces, hmodes]
    trivial
  rename_i hbraces
  split
  · obtain ⟨tail, hrest⟩ := startsWith_iff.1 ‹_›
    unfold comment
    rw [← hrest]
    split
    · exact .htmlComment hmodes hrest.symm ‹_›
    · exact .openHtmlComment hmodes hrest.symm ‹_›
  rename_i hcomment
  split
  · obtain ⟨tail, hrest⟩ := startsWith_iff.1 ‹_›
    split
    · exact .endTag hmodes hrest.symm ‹_›
    · exact .malformedEndTag hmodes hrest.symm ‹_›
  rename_i hclosing
  have htext : state.AtText := ⟨hmodes, eq_false_of_ne_true hescape, eq_false_of_ne_true hbraces,
    eq_false_of_ne_true hcomment, eq_false_of_ne_true hclosing⟩
  split
  · exact .startTag htext ‹_›
  · exact .text htext ‹_›

theorem takes_quotedStep {quote : Char} {start : Nat} {outer : List OpenMode}
    (hmodes : state.modes = ⟨.quoted quote, start⟩ :: outer) :
    state.Takes (quotedStep state.offset state.rest quote state.modes outer) := by
  unfold quotedStep
  split
  · obtain ⟨tail, hrest⟩ := startsWith_iff.1 ‹_›
    exact .quoteClose hmodes hrest.symm
  rename_i hquote
  split
  · rename_i hbraces
    refine .braces ?_ hbraces (atBraces_openCurly hbraces)
    obtain ⟨tail, hrest⟩ := startsWith_iff.1 hbraces
    rw [State.AllowsBraces, hmodes]
    rintro rfl
    rw [← hrest] at hquote
    exact hquote rfl
  · exact .quotedText hmodes (eq_false_of_ne_true hquote) (eq_false_of_ne_true ‹_›)

/-- No blank stands at the front of a text of which no blanks are passed over. -/
theorem isBlank_head {cs : List Char} (h : ¬ 0 < (cs.takeWhile Text.isBlank).length) :
    ∀ c ∈ cs.head?, Text.isBlank c = false := by
  intro c hc
  obtain ⟨tail, rfl⟩ := List.head?_eq_some_iff.1 hc
  refine eq_false_of_ne_true fun hblank => h ?_
  rw [List.takeWhile_cons_of_pos hblank]
  exact Nat.succ_pos _

section InTag

variable {name : String} {start : Nat} {outer : List OpenMode}
  (hmodes : state.modes = ⟨.tag name, start⟩ :: outer)
  (hblank : ∀ c ∈ state.rest.head?, Text.isBlank c = false)
include hmodes hblank

/-- Where a value is awaited, every step is one of the cases. -/
theorem takes_valueStep (hawaits : state.awaitsValue = true) :
    state.Takes (valueStep state.offset state.rest state.modes) := by
  unfold valueStep
  split
  · exact .quoteOpen hmodes hawaits (.inl rfl) ‹_›
  · exact .quoteOpen hmodes hawaits (.inr rfl) ‹_›
  rename_i hdouble hsingle
  split
  · refine .braces ?_ ‹_› (atBraces_openCurly ‹_›)
    rw [State.AllowsBraces, hmodes]
    trivial
  rename_i hbraces
  have hvalue : state.AtValue := by
    refine ⟨⟨name, start, outer, hmodes⟩, hawaits, fun c hc => ⟨hblank c hc, ?_, ?_⟩,
      eq_false_of_ne_true hbraces⟩
    · rintro rfl
      obtain ⟨tail, hrest⟩ := List.head?_eq_some_iff.1 hc
      exact hdouble tail hrest
    · rintro rfl
      obtain ⟨tail, hrest⟩ := List.head?_eq_some_iff.1 hc
      exact hsingle tail hrest
  split
  · exact .value hvalue ‹_›
  · exact .missingValue hvalue ‹_›

/-- Within a tag, every step is one of the cases. -/
theorem takes_tagStep (hawaits : state.awaitsValue = false) :
    state.Takes (tagStep state.offset state.rest name state.modes outer) := by
  unfold tagStep
  split
  · obtain ⟨tail, hrest⟩ := startsWith_iff.1 ‹_›
    exact .selfClose hmodes hawaits hrest.symm
  rename_i hclose
  split
  · refine .braces ?_ ‹_› (atBraces_openCurly ‹_›)
    rw [State.AllowsBraces, hmodes]
    trivial
  rename_i hbraces
  split
  · exact .tagOver hmodes hawaits ‹_›
  · exact .tagEnd hmodes hawaits ‹_›
  · exact .equals hmodes hawaits ‹_›
  rename_i c tail hend hequals hrest
  have hhead : state.rest.head? = some c := by rw [hrest, List.head?_cons]
  have hpart : state.AtPart name := by
    refine ⟨⟨start, outer, hmodes⟩, hawaits, fun d hd => ?_, eq_false_of_ne_true hclose,
      eq_false_of_ne_true hbraces⟩
    obtain rfl : c = d := Option.some.inj (hhead.symm.trans hd)
    exact ⟨hblank c hhead, hend, hequals⟩
  split
  · exact .tagParams hpart ‹_›
  split
  · exact .attributeName hpart ‹_› ‹_›
  · exact .strayInTag hpart hhead ‹_› ‹_›

end InTag

theorem takes_expressionStep {closer : Closer} {start : Nat} {outer : List OpenMode}
    (hmodes : state.modes = ⟨.expression closer, start⟩ :: outer)
    (hblank : ∀ c ∈ state.rest.head?, Text.isBlank c = false) :
    state.Takes (expressionStep state.rest closer state.modes outer) := by
  unfold expressionStep
  split
  · exact .closer hmodes ‹_›
  rename_i hcloser
  split
  · exact .mustacheOver hmodes ‹_›
  · exact .openParen hmodes ‹_›
  · exact .closeParen hmodes ‹_›
  rename_i c tail hopen hclose hrest
  have hhead : state.rest.head? = some c := by rw [hrest, List.head?_cons]
  have hword : state.AtWord c :=
    ⟨⟨closer, start, outer, hmodes, hcloser⟩, hhead, hblank c hhead, hopen, hclose⟩
  split
  · exact .word hword ‹_›
  · exact .strayInMustache hword ‹_›

end

/-- In every state the scanner takes one of the steps. -/
theorem State.takes_step (state : State) : state.Takes state.step := by
  unfold State.step
  dsimp only
  split
  · rename_i hmodes
    have htakes := takes_contentStep hmodes
    rwa [hmodes] at htakes
  · rename_i hmodes
    have htakes := takes_quotedStep hmodes
    rwa [hmodes] at htakes
  · rename_i hmodes
    split
    · exact .tagBlanks hmodes ‹_›
    rename_i hblank
    split
    · have htakes := takes_valueStep hmodes (isBlank_head hblank) ‹_›
      rwa [hmodes] at htakes
    · have htakes := takes_tagStep hmodes (isBlank_head hblank) (eq_false_of_ne_true ‹_›)
      rwa [hmodes] at htakes
  · rename_i hmodes
    split
    · exact .blanks hmodes ‹_›
    · have htakes := takes_expressionStep hmodes (isBlank_head ‹_›)
      rwa [hmodes] at htakes

theorem State.takes_of_step {state : State} {step : Step} (h : state.step = step) :
    state.Takes step :=
  h ▸ state.takes_step

end TemplateUsage.Scan
