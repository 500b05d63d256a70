import TemplateUsage.Proofs.Scan.Coverage

set_option autoImplicit false

/-!
# A state takes one step

The steps of the scanner exclude each other: what is said of a state for a step to be taken
in it (`State.Takes`) settles the step. So a step that is taken in one state can be found
again in another one by the same case. Main statement: `State.takes_iff`.
-/

namespace TemplateUsage.Scan

/-! ## Braces -/

/-- The opening braces are three characters wide with a mark and two without. -/
theorem Braces.width_eq {cs left inner : List Char} (h : Braces cs left inner) :
    (if startsWith ['~'] (cs.drop 2) then 3 else 2) = left.length + 2 := by
  rw [h.text]
  rcases h.mark with rfl | ⟨rfl, hmark⟩
  · rfl
  · exact if_neg (Bool.eq_false_iff.1 hmark)

section Braces

variable {offset : Nat} {cs left : List Char} {modes : List OpenMode}

/-- The braces of an opener open its expression. -/
theorem Opener.openCurly_eq {more rest : List Char} {kind : Kind} {closer : Closer}
    (h : Opener kind closer more rest) (hbraces : Braces cs left (more ++ rest)) :
    openCurly offset cs modes = .emit kind ('\x7b' :: '\x7b' :: (left ++ more))
      (left.length + 2 + more.length) (⟨.expression closer, offset⟩ :: modes) := by
  unfold openCurly
  rw [hbraces.width_eq]
  dsimp only
  rw [hbraces.drop_eq, ← hbraces.take_eq]
  cases h with
  | markedTriple | block | endBlock => rfl
  | triple hmark =>
      split
      · -- with a mark the three braces would be those of `markedTriple`
        rename_i heq
        cases heq
        cases hmark
      · rfl
      all_goals
        rename_i heq
        first | cases heq | simp_all
  | otherwise helse => exact if_pos helse
  | plain hhead helse =>
      rw [List.nil_append]
      -- what the other braces are followed by is not the first character here
      split
      all_goals
        first
          | exact absurd (by decide) (hhead _ rfl)
          | exact if_neg (Bool.eq_false_iff.1 helse)

/-- The braces of a comment are read as a comment of its form, up to its own stop. -/
theorem CurlyComment.openCurly_eq {form : CommentForm} {stop : List Char → Option Nat}
    {dashes tail : List Char} (h : CurlyComment form dashes stop tail)
    (hbraces : Braces cs left ('!' :: (dashes ++ tail))) :
    openCurly offset cs modes =
      comment form .curlyComment stop (left.length + 3 + dashes.length) cs modes := by
  unfold openCurly
  rw [hbraces.width_eq]
  dsimp only
  rw [hbraces.drop_eq]
  cases h with
  | long => rfl
  | short hshort =>
      rw [List.nil_append]
      split
      · rename_i heq
        cases heq
      · rename_i heq
        cases heq
      · -- two dashes would make the comment a long one
        rename_i heq
        cases heq
        cases hshort
      · rfl
      all_goals
        rename_i heq
        first | cases heq | simp_all

/-- `AtBraces` describes no step at a pair of braces but the one taken. -/
theorem AtBraces.openCurly_eq {step : Step} (h : AtBraces offset cs modes step) :
    openCurly offset cs modes = step := by
  cases h with
  | opener hbraces hopener => exact hopener.openCurly_eq hbraces
  | comment hbraces hcomment hbreak =>
      rw [hcomment.openCurly_eq hbraces, Scan.comment, hbraces.drop_comment, hbreak]
  | unterminated hbraces hcomment hbreak =>
      rw [hcomment.openCurly_eq hbraces, Scan.comment, hbraces.drop_comment, hbreak]
  | partialCall hbraces | caretSection hbraces =>
      unfold openCurly
      rw [hbraces.width_eq]
      dsimp only
      rw [hbraces.drop_eq]
      rfl

end Braces

/-! ## Steps -/

theorem takeWhile_isBlank {cs : List Char} (h : ∀ c ∈ cs.head?, Text.isBlank c = false) :
    cs.takeWhile Text.isBlank = [] := by
  cases cs with
  | nil => rfl
  | cons c tail => rw [List.takeWhile_cons_of_neg (Bool.eq_false_iff.1 (h c rfl))]

section

variable {state : State}

theorem State.step_content (h : state.modes = []) :
    state.step = contentStep state.offset state.rest state.modes := by
  rw [State.step, h]

theorem State.step_quoted {quote : Char} {start : Nat} {outer : List OpenMode}
    (h : state.modes = ⟨.quoted quote, start⟩ :: outer) :
    state.step = quotedStep state.offset state.rest quote state.modes outer := by
  rw [State.step, h]

theorem State.step_value {name : String} {start : Nat} {outer : List OpenMode}
    (h : state.modes = ⟨.tag name, start⟩ :: outer) (hawaits : state.awaitsValue = true)
    (hblank : ∀ c ∈ state.rest.head?, Text.isBlank c = false) :
    state.step = valueStep state.offset state.rest state.modes := by
  rw [State.step, h, takeWhile_isBlank hblank, hawaits]
  rfl

theorem State.step_part {name : String} {start : Nat} {outer : List OpenMode}
    (h : state.modes = ⟨.tag name, start⟩ :: outer) (hawaits : state.awaitsValue = false)
    (hblank : ∀ c ∈ state.rest.head?, Text.isBlank c = false) :
    state.step = tagStep state.offset state.rest name state.modes outer := by
  rw [State.step, h, takeWhile_isBlank hblank, hawaits]
  rfl

theorem State.step_expression {closer : Closer} {start : Nat} {outer : List OpenMode}
    (h : state.modes = ⟨.expression closer, start⟩ :: outer)
    (hblank : ∀ c ∈ state.rest.head?, Text.isBlank c = false) :
    state.step = expressionStep state.rest closer state.modes outer := by
  rw [State.step, h, takeWhile_isBlank hblank]
  rfl

/-- Wherever braces are allowed they are opened in the same way, whatever the mode. -/
theorem State.AllowsBraces.step_eq (h : state.AllowsBraces) (hcurly : atCurly state.rest = true) :
    state.step = openCurly state.offset state.rest state.modes := by
  obtain ⟨offset, rest, modes, awaitsValue⟩ := state
  obtain ⟨tail, rfl⟩ := startsWith_iff.1 hcurly
  rcases modes with _ | ⟨⟨name | quote | closer, start⟩, outer⟩
  · rfl
  · cases awaitsValue <;> rfl
  · -- the quote that ends a value is looked for before the braces
    have hquote : startsWith [quote] (['\x7b', '\x7b'] ++ tail) = false :=
      startsWith_eq_false fun rest heq => h (List.cons.inj heq).1.symm
    rw [State.step_quoted rfl, quotedStep, hquote]
    rfl
  · exact h.elim

/-- Past the quotes and the braces, a value is unquoted or missing. -/
theorem State.AtValue.step_eq (h : state.AtValue) :
    state.step =
      match unquotedValue? state.rest with
      | some found => .found .attributeText found state.modes
      | none => .fail .missingValue 1 := by
  obtain ⟨name, start, outer, hmodes⟩ := h.modes
  rw [State.step_value hmodes h.awaitsValue fun c hc => (h.head c hc).1, valueStep.eq_def]
  split
  · rename_i hrest
    exact absurd rfl (h.head '"' (by rw [hrest]; rfl)).2.1
  · rename_i hrest
    exact absurd rfl (h.head '\'' (by rw [hrest]; rfl)).2.2
  · rw [h.braces]
    rfl

/-- Past what ends a tag, a part of it is a list of block parameters, an attribute or stray. -/
theorem State.AtPart.step_eq {name : String} {c : Char} (h : state.AtPart name)
    (hhead : state.rest.head? = some c) :
    state.step =
      match blockParams? state.rest with
      | some found => .found .blockParams found state.modes
      | none =>
          match attributeName? state.rest with
          | some found => .found .attributeName found state.modes
          | none => .fail (.strayInTag c name) 1 := by
  obtain ⟨start, outer, hmodes⟩ := h.modes
  obtain ⟨tail, hrest⟩ := List.head?_eq_some_iff.1 hhead
  obtain ⟨-, hend, hequals⟩ := h.head c hhead
  rw [State.step_part hmodes h.awaitsValue fun c hc => (h.head c hc).1, tagStep.eq_def,
    h.closing, h.braces]
  simp only [Bool.false_eq_true, if_false]
  rw [hrest]
  split
  · rename_i heq
    cases heq
  · rename_i heq
    exact absurd (List.cons.inj heq).1 hend
  · rename_i heq
    exact absurd (List.cons.inj heq).1 hequals
  · rename_i heq
    cases heq
    rfl

/-- Past parentheses and the closing braces, an expression has a word or a stray character. -/
theorem State.AtWord.step_eq {c : Char} (h : state.AtWord c) :
    state.step =
      match wordStep? state.rest with
      | some (kind, found) => .found kind found state.modes
      | none => .fail (.strayInMustache c) 1 := by
  obtain ⟨closer, start, outer, hmodes, hcloser⟩ := h.modes
  obtain ⟨tail, hrest⟩ := List.head?_eq_some_iff.1 h.head
  have hblank : ∀ d ∈ state.rest.head?, Text.isBlank d = false := by
    intro d hd
    obtain rfl : c = d := Option.some.inj (h.head.symm.trans hd)
    exact h.solid
  rw [State.step_expression hmodes hblank, expressionStep.eq_def, hcloser]
  dsimp only
  rw [hrest]
  split
  · rename_i heq
    cases heq
  · rename_i heq
    exact absurd (List.cons.inj heq).1 h.paren.1
  · rename_i heq
    exact absurd (List.cons.inj heq).1 h.paren.2
  · rename_i heq
    cases heq
    rfl

/-- The closing braces of an expression do not start with a blank. -/
theorem isBlank_head_of_closer? {closer : Closer} {cs : List Char} {found : Found}
    (h : closer? closer cs = some found) : ∀ c ∈ cs.head?, Text.isBlank c = false := by
  unfold closer? at h
  split at h <;> cases h
  all_goals
    rintro c ⟨⟩
    rfl

/-- A pattern that does not match the empty text matches a text with a first character. -/
theorem exists_head_of_found {pattern : List Char → Option Found} {cs : List Char} {found : Found}
    (hnil : pattern [] = none) (h : pattern cs = some found) : ∃ c, cs.head? = some c := by
  cases cs with
  | nil =>
      rw [hnil] at h
      cases h
  | cons c tail => exact ⟨c, rfl⟩

/-- The step is that of the case. -/
theorem State.Takes.step_eq {step : Step} (h : state.Takes step) : state.step = step := by
  cases h with
  | braces hallows hcurly hbraces =>
      rw [hallows.step_eq hcurly]
      exact hbraces.openCurly_eq
  | escape hmodes hrest =>
      rw [State.step_content hmodes, hrest]
      rfl
  | htmlComment hmodes hrest hbreak | openHtmlComment hmodes hrest hbreak =>
      rw [State.step_content hmodes, hrest]
      show comment .html .htmlComment _ (['<', '!', '-', '-'].length)
        (['<', '!', '-', '-'] ++ _) _ = _
      rw [comment, List.drop_left, hbreak]
      rfl
  | endTag hmodes hrest hfound | malformedEndTag hmodes hrest hfound =>
      rw [hrest] at hfound
      rw [State.step_content hmodes, contentStep, hrest, hfound]
      rfl
  | startTag htext htag | text htext htag =>
      -- a start tag is looked for last, and text is what is left
      rw [State.step_content htext.modes, contentStep, htext.escape, htext.braces,
        htext.comment, htext.closing, htag]
      rfl
  | @quoteClose quote _ _ tail hmodes hrest =>
      have hstarts : startsWith [quote] (quote :: tail) = true := by simp [startsWith]
      rw [State.step_quoted hmodes, quotedStep, hrest, hstarts]
      rfl
  | quotedText hmodes hquote hcurly =>
      rw [State.step_quoted hmodes, quotedStep, hquote, hcurly]
      rfl
  | tagBlanks hmodes hpos =>
      rw [State.step, hmodes]
      exact if_pos hpos
  | quoteOpen hmodes hawaits hquote hrest =>
      rw [State.step, hmodes, hawaits, hrest]
      rcases hquote with rfl | rfl <;> rfl
  | value hvalue hfound =>
      rw [hvalue.step_eq, hfound]
      rfl
  | missingValue hvalue hfound => rw [hvalue.step_eq, hfound]
  | selfClose hmodes hawaits hrest | tagEnd hmodes hawaits hrest | equals hmodes hawaits hrest
  | tagOver hmodes hawaits hrest =>
      rw [State.step, hmodes, hawaits, hrest]
      rfl
  | tagParams hpart hfound =>
      obtain ⟨c, hhead⟩ := exists_head_of_found rfl hfound
      rw [hpart.step_eq hhead, hfound]
      rfl
  | attributeName hpart hparams hfound =>
      obtain ⟨c, hhead⟩ := exists_head_of_found rfl hfound
      rw [hpart.step_eq hhead, hparams, hfound]
      rfl
  | strayInTag hpart hhead hparams hname => rw [hpart.step_eq hhead, hparams, hname]
  | blanks hmodes hpos =>
      rw [State.step, hmodes]
      exact if_pos hpos
  | closer hmodes hfound =>
      rw [State.step_expression hmodes (isBlank_head_of_closer? hfound), expressionStep.eq_def,
        hfound]
      rfl
  | @openParen closer _ _ _ hmodes hrest | @closeParen closer _ _ _ hmodes hrest
  | @mustacheOver closer _ _ hmodes hrest =>
      rw [State.step, hmodes, hrest]
      cases closer <;> rfl
  | word hword hfound =>
      rw [hword.step_eq, hfound]
      rfl
  | strayInMustache hword hfound => rw [hword.step_eq, hfound]

/-- The cases of a step are a description of it: a state takes the step it makes, and no other.
-/
theorem State.takes_iff {step : Step} : state.Takes step ↔ state.step = step :=
  ⟨State.Takes.step_eq, State.takes_of_step⟩

end

end TemplateUsage.Scan
