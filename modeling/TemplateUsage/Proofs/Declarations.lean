import TemplateUsage.Proofs.Scan.WholeWords
import TemplateUsage.Proofs.Wrapping

set_option autoImplicit false

/-!
# Where block parameters end

Block parameters go on from their opening bar to the next bar, wherever that stands:
nothing in between ends them, not the end of the tag or the expression they are declared in.
If there is no bar after the opening one, none are found. An expression then has no place for
the bar and the text is rejected (`State.InExpression.run_unclosed`), while a tag takes the
`as` and what begins with the bar for attributes (`State.InTag.run_unclosed`). Main statement:
`declarations_reach_next_bar`.
-/

namespace TemplateUsage

namespace Scan

/-- The scanner is between the parts of an opening tag. -/
def State.InTag (state : State) : Prop :=
  state.awaitsValue = false ∧ ∃ name start outer, state.modes = ⟨.tag name, start⟩ :: outer

/-- There is a bar in `rest`, and a step takes all that is before the first one for names. -/
def State.TakesNames (state : State) (blanks rest : List Char) : Prop :=
  ∃ names after, rest = names ++ '|' :: after ∧ '|' ∉ names ∧
    state.step = .emit .blockParams names (blanks.length + names.length + 4) state.modes

/-- In a tag a step at any other character than these is at block parameters or a name. -/
theorem step_tag_name {c : Char} (hblank : Text.isBlank c = false)
    (hstart : c ∉ ['/', '\x7b', '>', '=']) (offset : Nat) (rest : List Char) (name : String)
    (start : Nat) (outer : List OpenMode) :
    State.step ⟨offset, c :: rest, ⟨.tag name, start⟩ :: outer, false⟩ =
      match blockParams? (c :: rest) with
      | some found => .found .blockParams found (⟨.tag name, start⟩ :: outer)
      | none =>
          match attributeName? (c :: rest) with
          | some found => .found .attributeName found (⟨.tag name, start⟩ :: outer)
          | none => .fail (.strayInTag c name) 1 := by
  simp only [List.mem_cons, List.not_mem_nil, or_false, not_or] at hstart
  obtain ⟨hslash, hbrace, hclose, hequals⟩ := hstart
  have hother : ∀ d more, c ≠ d → startsWith (d :: more) (c :: rest) = false := by
    intro d more hne
    exact startsWith_eq_false fun tail heq => hne (List.cons.inj heq).1
  have hpart : State.AtPart ⟨offset, c :: rest, ⟨.tag name, start⟩ :: outer, false⟩ name := by
    refine ⟨⟨start, outer, rfl⟩, rfl, ?_, hother _ _ hslash, hother _ _ hbrace⟩
    rintro d ⟨⟩
    exact ⟨hblank, hclose, hequals⟩
  exact hpart.step_eq rfl

section Steps

variable {state : State} {blanks rest : List Char} (h : Declares state.rest blanks rest)
include h

theorem State.InExpression.takesNames (hinside : state.InExpression) (hbar : '|' ∈ rest) :
    state.TakesNames blanks rest := by
  obtain ⟨names, after, rfl, hnames⟩ := List.eq_append_cons_of_mem hbar
  refine ⟨names, after, rfl, hnames, ?_⟩
  obtain ⟨offset, text, modes, awaitsValue⟩ := state
  obtain ⟨closer, start, outer, rfl⟩ := hinside
  have hword := wordStep?_of_blockParams (h.blockParams?_closed hnames)
  have hends : endsWord text = false := by
    obtain rfl := h.text
    rfl
  exact step_word hends hword offset start closer outer awaitsValue

/-- In a tag a step is at block parameters, or at an attribute named `as`. -/
theorem State.InTag.step_eq (hinside : state.InTag) :
    state.step =
      match blockParams? state.rest with
      | some found => .found .blockParams found state.modes
      | none => .emit .attributeName ['a', 's'] 2 state.modes := by
  obtain ⟨offset, text, modes, awaitsValue⟩ := state
  obtain ⟨rfl, name, start, outer, rfl⟩ := hinside
  have hname : attributeName? text = some (.whole ['a', 's']) := by
    rw [attributeName?, h.takeWhile_as rfl rfl fun c hc => by rw [isAttributeNameChar, hc]; rfl]
  obtain rfl : text = 'a' :: 's' :: (blanks ++ '|' :: rest) := h.text
  rw [step_tag_name (by decide) (by decide), hname]
  rfl

theorem State.InTag.takesNames (hinside : state.InTag) (hbar : '|' ∈ rest) :
    state.TakesNames blanks rest := by
  obtain ⟨names, after, rfl, hnames⟩ := List.eq_append_cons_of_mem hbar
  refine ⟨names, after, rfl, hnames, ?_⟩
  rw [hinside.step_eq h, h.blockParams?_closed hnames]
  rfl

/-- After a token for `as` the scanner passes over the blanks. -/
theorem run_as (hblanks : PassesBlanks state.modes) {kind : Kind} (hkind : kind ≠ .equals)
    (hstep : state.step = .emit kind ['a', 's'] 2 state.modes) :
    Run state [⟨kind, ['a', 's'], state.offset, state.offset + 2⟩]
      ⟨state.offset + 2 + blanks.length, '|' :: rest, state.modes, false⟩ := by
  have hne : state.rest ≠ [] := by
    rw [h.text]
    exact List.cons_ne_nil _ _
  have hadvance : state.advance 2 state.modes (kind == .equals) =
      ⟨state.offset + 2, blanks ++ '|' :: rest, state.modes, false⟩ := by
    rw [State.advance, h.text, beq_false_of_ne hkind]
    rfl
  have hskip : State.step ⟨state.offset + 2, blanks ++ '|' :: rest, state.modes, false⟩ =
      .skip blanks.length := by
    have htake := h.takeWhile_blanks
    have hpos : 0 < ((blanks ++ '|' :: rest).takeWhile Text.isBlank).length := by
      rw [htake]
      exact List.length_pos_iff.2 h.blanks_ne_nil
    rw [State.step_of_blanks hblanks hpos, htake]
  refine .emit hne hstep ?_
  rw [hadvance]
  refine .skip (by simp) hskip ?_
  rw [State.advance, List.drop_left]
  exact .refl _

/-- In an expression `as` is then a path, and the bar has no place. -/
theorem State.InExpression.run_unclosed (hinside : state.InExpression) (hbar : '|' ∉ rest) :
    ∃ final, Run state [⟨.path, ['a', 's'], state.offset, state.offset + 2⟩] final ∧
      final.rest ≠ [] ∧ final.step = .fail (.strayInMustache '|') 1 := by
  have hword := h.word.1
  have hne : wordAt state.rest ≠ [] := by
    rw [hword]
    exact List.cons_ne_nil _ _
  obtain ⟨kind, value, width, hstep, hsort, htakes⟩ := hinside.exists_step hne
  have hpath : WordSort state.rest .path :=
    .path (not_isDeclaration (h.blockParams?_unclosed hbar)) h.not_isKey
      (fun hnumeral => h.not_isNumeral hnumeral.1) fun kind hmem => h.not_keyword kind hmem.1
  obtain rfl := hsort.unique hpath
  obtain rfl : value = ['a', 's'] := (htakes.value_eq (by decide)).trans hword
  obtain rfl : width = 2 := (htakes.width_eq (by decide)).trans (congrArg List.length hword)
  obtain ⟨closer, start, outer, hmodes⟩ := hinside
  have hpasses : PassesBlanks state.modes := by
    rw [hmodes]
    exact ⟨_, rfl, .inr ⟨closer, rfl⟩⟩
  refine ⟨_, run_as h hpasses (by decide) hstep, List.cons_ne_nil _ _, ?_⟩
  rw [hmodes]
  cases closer <;> rfl

/-- In a tag `as` is then an attribute, and so is what begins with the bar. -/
theorem State.InTag.run_unclosed (hinside : state.InTag) (hbar : '|' ∉ rest) :
    ∃ final, Run state
      [⟨.attributeName, ['a', 's'], state.offset, state.offset + 2⟩,
        ⟨.attributeName, '|' :: rest.takeWhile isAttributeNameChar,
          state.offset + 2 + blanks.length,
          state.offset + 2 + blanks.length + ((rest.takeWhile isAttributeNameChar).length + 1)⟩]
      final := by
  have hstep := hinside.step_eq h
  rw [h.blockParams?_unclosed hbar] at hstep
  obtain ⟨-, name, start, outer, hmodes⟩ := hinside
  have hpasses : PassesBlanks state.modes := by
    rw [hmodes]
    exact ⟨_, rfl, .inl ⟨name, rfl⟩⟩
  have hfirst := run_as h hpasses (by decide) hstep
  have hname : State.step ⟨state.offset + 2 + blanks.length, '|' :: rest, state.modes, false⟩ =
      .emit .attributeName ('|' :: rest.takeWhile isAttributeNameChar)
        ((rest.takeWhile isAttributeNameChar).length + 1) state.modes := by
    rw [hmodes, step_tag_name (by decide) (by decide)]
    rfl
  exact ⟨_, hfirst.trans (.emit (List.cons_ne_nil _ _) hname (.refl _))⟩

end Steps

/-- A text whose scan comes to a fault is rejected. -/
theorem rejection_of_fail {source : String} {pieces : List Piece} {state : State} {fault : Fault}
    {width : Nat} (hrun : Run (.initial source.toList) pieces state) (hne : state.rest ≠ [])
    (hstep : state.step = .fail fault width) : (ofText source).rejection ≠ none := by
  rw [ofText, scanFrom_of_run _ hrun, scanFrom_fail hne hstep]
  exact Option.some_ne_none _

/-- Block parameters of a text stand between `as` and a bar, and the bar that ends them. -/
theorem exists_declares_of_mem_tokens {source : String} {token : Token}
    (hmem : token ∈ (ofText source).tokens) (hkind : token.kind = .blockParams) :
    ∃ blanks after, Declares (source.toList.drop token.start) blanks
      (token.lexeme.value.toList ++ '|' :: after) ∧ '|' ∉ token.lexeme.value.toList := by
  obtain ⟨front, back, htokens⟩ := List.append_of_mem hmem
  obtain ⟨pieces, state, width, modes, hrun, -, hne, hstep, -, -, hrest⟩ :=
    exists_run_of_tokens htokens
  rw [hkind] at hstep
  have hcovers := state.step_covers hne
  have hattests := State.attests_of_step hne hstep
  rw [hstep] at hcovers
  obtain ⟨slice, after, hsplit, -, blanks, hblanks, hall, rfl⟩ := hcovers
  refine ⟨blanks, after, ⟨?_, hblanks, hall⟩, hattests⟩
  rw [← hrest, hsplit]
  simp

end Scan

namespace Template

open Scan

/-- Where block parameters end in a text that parses. They go from the bar after `as` to the
next bar, and whatever is between the two is taken for names, be it the end of the tag or of
the expression and markup after it. Wherever `as`, blanks and a bar are read in an expression
there is a second bar, for else the text does not parse. In a tag there may be none; then `as`
is an attribute, and what begins with the bar is another. -/
theorem declarations_reach_next_bar {file source : String} {root : Node}
    (hparse : parse file source = .ok root) :
    (∀ token ∈ (ofText source).tokens, token.kind = .blockParams →
      ∃ blanks after, Declares (source.toList.drop token.start) blanks
        (token.lexeme.value.toList ++ '|' :: after) ∧ '|' ∉ token.lexeme.value.toList) ∧
    ∀ pieces state blanks rest, Run (.initial source.toList) pieces state →
      Declares state.rest blanks rest →
      (state.InExpression → state.TakesNames blanks rest) ∧
      (state.InTag → '|' ∈ rest → state.TakesNames blanks rest) ∧
      (state.InTag → '|' ∉ rest → ∃ final, Run state
        [⟨.attributeName, ['a', 's'], state.offset, state.offset + 2⟩,
          ⟨.attributeName, '|' :: rest.takeWhile isAttributeNameChar,
            state.offset + 2 + blanks.length,
            state.offset + 2 + blanks.length + ((rest.takeWhile isAttributeNameChar).length + 1)⟩]
        final) := by
  obtain ⟨hscan, -⟩ := parse_eq_ok_iff.1 hparse
  refine ⟨fun token hmem hkind => exists_declares_of_mem_tokens hmem hkind, ?_⟩
  intro pieces state blanks rest hrun hdeclares
  refine ⟨fun hinside => ?_, fun hinside hbar => hinside.takesNames hdeclares hbar,
    fun hinside hbar => hinside.run_unclosed hdeclares hbar⟩
  by_cases hbar : '|' ∈ rest
  · exact hinside.takesNames hdeclares hbar
  · obtain ⟨final, hunclosed, hne, hfail⟩ := hinside.run_unclosed hdeclares hbar
    exact absurd hscan (rejection_of_fail (hrun.trans hunclosed) hne hfail)

/-- A tag whose names go on into the next one. -/
def swallowedTag : String := "<A as |x><B |></A>"

/-- A tag whose names have no second bar. -/
def unclosedNames : String := "<a as |x></a>"

/-- Both tags parse. The names of one reach into the tag after it, and those of the other are
attributes. -/
theorem declarations_reach_next_bar_bothTags :
    (parse "page" swallowedTag).isOk = true ∧ (parse "page" unclosedNames).isOk = true ∧
    (∃ token ∈ (ofText swallowedTag).tokens, token.lexeme.value = "x><B " ∧
      ∃ blanks after, Declares (swallowedTag.toList.drop token.start) blanks
        ("x><B ".toList ++ '|' :: after)) ∧
    ∃ pieces final, Run (.initial unclosedNames.toList)
      (pieces ++ [⟨.attributeName, ['a', 's'], 3, 5⟩, ⟨.attributeName, ['|', 'x'], 6, 8⟩])
      final := by
  have hswallowed : (parse "page" swallowedTag).isOk = true := by decide +kernel
  have hunclosed : (parse "page" unclosedNames).isOk = true := by decide +kernel
  refine ⟨hswallowed, hunclosed, ?_, ?_⟩
  · obtain ⟨root, hroot⟩ := exists_of_isOk hswallowed
    have hmem : ⟨.blockParams, "x><B ", ⟨⟨3, 1, 4⟩, ⟨13, 1, 14⟩⟩⟩ ∈
        (ofText swallowedTag).tokens := by decide +kernel
    obtain ⟨blanks, after, hdeclares, -⟩ :=
      (declarations_reach_next_bar hroot).1 _ hmem rfl
    exact ⟨_, hmem, rfl, blanks, after, hdeclares⟩
  · obtain ⟨root, hroot⟩ := exists_of_isOk hunclosed
    have hstart : (State.initial unclosedNames.toList).step =
        .emit .startTag ['a'] 2 [⟨.tag "a", 0⟩] := by rfl
    have hblank : State.step ⟨2, " as |x></a>".toList, [⟨.tag "a", 0⟩], false⟩ = .skip 1 := by rfl
    have hrun : Run (.initial unclosedNames.toList) [⟨.startTag, ['a'], 0, 2⟩]
        ⟨3, "as |x></a>".toList, [⟨.tag "a", 0⟩], false⟩ :=
      .emit (by decide) hstart (.skip (List.cons_ne_nil _ _) hblank (.refl _))
    have hdeclares : Declares "as |x></a>".toList [' '] "x></a>".toList :=
      ⟨rfl, by decide, List.forall_mem_singleton.2 rfl⟩
    obtain ⟨final, hfinal⟩ := ((declarations_reach_next_bar hroot).2 _ _ _ _ hrun hdeclares).2.2
      ⟨rfl, _, _, _, rfl⟩ (by decide)
    exact ⟨_, final, hrun.trans hfinal⟩

/-- So names can hold markup, and names without a second bar do not stop the parsing. -/
theorem declarations_not_confined :
    (parse "page" swallowedTag).isOk = true ∧
    (∃ token ∈ (ofText swallowedTag).tokens, token.kind = .blockParams ∧
      '>' ∈ token.lexeme.value.toList ∧ '<' ∈ token.lexeme.value.toList) ∧
    (parse "page" unclosedNames).isOk = true ∧
    (ofText unclosedNames).tokens.map (fun token => (token.kind, token.lexeme.value)) =
      [(.startTag, "a"), (.attributeName, "as"), (.attributeName, "|x"), (.tagEnd, ">"),
        (.endTag, "a")] := by
  refine ⟨by decide +kernel, ⟨⟨.blockParams, "x><B ", ⟨⟨3, 1, 4⟩, ⟨13, 1, 14⟩⟩⟩, ?_⟩,
    by decide +kernel, by decide +kernel⟩
  decide +kernel

end Template

end TemplateUsage
