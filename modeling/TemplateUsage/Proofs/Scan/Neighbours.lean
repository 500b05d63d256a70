import TemplateUsage.Proofs.Scan.Constructs
import TemplateUsage.Proofs.Scan.Lookahead
import TemplateUsage.Proofs.Scan.Lossless

set_option autoImplicit false

/-!
# What the tokens of a scan are, and which stand side by side

The kind of a token tells something of its value and of the state it was found in
(`Attests`, `State.attests_of_step`). From one token to the next this gives that text is
not cut in two: no two tokens of an attribute's text stand side by side, and of two
texts between tags one is an escaped expression. The end of a tag that leaves an element
open is never that of a void element, because the tag the scanner is in is the latest
one it has opened. Main statement: `coherent_ofText`.
-/

namespace TemplateUsage.Scan

/-! ## What a step attests -/

/-- The text of an attribute may come next: its value without quotes, or a character of
a quoted value that neither ends it nor opens an expression. -/
def State.TakesText (state : State) : Prop :=
  match state.modes with
  | ⟨.tag _, _⟩ :: _ => state.awaitsValue = true
  | ⟨.quoted quote, _⟩ :: _ => startsWith [quote] state.rest = false ∧ atCurly state.rest = false
  | _ => False

/-- What is known of a token of this kind that is found in the state, after which the
constructs `modes` are open. -/
def Attests (state : State) (kind : Kind) (value : List Char) (width : Nat)
    (modes : List OpenMode) : Prop :=
  match kind with
  | .path => value ≠ [] ∧ ∀ c ∈ value, isPathChar c = true
  | .blockParams => '|' ∉ value
  | .text =>
      value ≠ [] ∧ state.modes = [] ∧ modes = [] ∧
        (['\x7b', '\x7b'] <+: value ∨ halts state.rest = false ∧
          (state.rest.drop width = [] ∨ halts (state.rest.drop width) = true))
  | .attributeText =>
      value ≠ [] ∧ state.TakesText ∧
        (state.rest.drop width = [] ∨ ¬ (state.advance width modes false).TakesText)
  | .startTag | .htmlComment => state.modes = []
  | .tagEnd =>
      ∃ name start outer, state.modes = ⟨.tag name, start⟩ :: outer ∧ name ∉ voidElements
  | _ => True

/-- Text is read only where it does not halt. -/
theorem halts_eq_false_of_textRun {cs : List Char} (h : textRun cs ≠ []) : halts cs = false := by
  cases cs with
  | nil => rfl
  | cons c rest =>
      rw [textRun_cons] at h
      cases hhalts : halts (c :: rest) with
      | false => rfl
      | true =>
          rw [hhalts] at h
          exact absurd rfl h

theorem bar_not_mem_blockParams? {cs : List Char} {found : Found}
    (h : blockParams? cs = some found) : '|' ∉ found.value := by
  unfold blockParams? at h
  split at h
  · dsimp only at h
    split at h
    · split at h
      · cases h
      · split at h
        · cases h
          intro hbar
          exact absurd (List.mem_takeWhile_imp hbar) (by decide)
        · cases h
    · cases h
  · cases h

/-- The text of a quoted value ends with the text, or where the value ends or an
expression opens. -/
theorem drop_quotedRun (quote : Char) (cs : List Char) :
    cs.drop (quotedRun quote cs).length = [] ∨
      startsWith [quote] (cs.drop (quotedRun quote cs).length) = true ∨
        atCurly (cs.drop (quotedRun quote cs).length) = true := by
  induction cs with
  | nil => exact .inl rfl
  | cons c rest ih =>
      rw [quotedRun]
      split
      · rename_i hstop
        rw [Bool.or_eq_true, decide_eq_true_eq, Bool.and_eq_true, decide_eq_true_eq,
          decide_eq_true_eq] at hstop
        rcases hstop with rfl | ⟨rfl, hnext⟩
        · exact .inr (.inl (by simp [startsWith]))
        · obtain ⟨tail, rfl⟩ := List.head?_eq_some_iff.1 hnext
          exact .inr (.inr rfl)
      · exact ih

theorem unquotedValue?_ne_nil {cs : List Char} {found : Found}
    (h : unquotedValue? cs = some found) : found.value ≠ [] := by
  unfold unquotedValue? at h
  split at h
  · cases h
  · rename_i value hne
    cases h
    exact hne

/-- A word attests what any token within an expression does. -/
theorem Word.attests {state : State} {cs : List Char} {kind : Kind} {found : Found}
    (h : Word cs kind found) (modes : List OpenMode) :
    Attests state kind found.value found.width modes := by
  cases h with
  | params h => exact bar_not_mem_blockParams? h
  | keyword hmem h => rcases (mem_keywords hmem).2 with rfl | rfl | rfl <;> trivial
  | path h =>
      unfold path? at h
      split at h
      · cases h
      · rename_i path hne
        cases h
        exact ⟨hne, fun c hc => List.mem_takeWhile_imp hc⟩
  | _ => trivial

/-- The token of a step is as its kind tells. -/
theorem State.attests_of_step {state : State} {kind : Kind} {value : List Char} {width : Nat}
    {modes : List OpenMode} (hne : state.rest ≠ [])
    (hstep : state.step = .emit kind value width modes) :
    Attests state kind value width modes := by
  cases State.takes_of_step hstep with
  | braces _ _ hbraces =>
      cases hbraces with
      | opener _ hopener => cases hopener <;> trivial
      | comment => trivial
  | @escape tail hmodes hrest =>
      have hbraces := braces_isPrefix_escapedRun tail
      refine ⟨?_, hmodes, hmodes, .inl hbraces⟩
      intro hnil
      rw [hnil] at hbraces
      cases List.prefix_nil.1 hbraces
  | htmlComment hmodes => exact hmodes
  | startTag htext => exact htext.modes
  | text htext htag =>
      have hrun := htext.textRun_ne_nil hne htag
      exact ⟨hrun, htext.modes, htext.modes,
        .inr ⟨halts_eq_false_of_textRun hrun, halts_drop_textRun state.rest⟩⟩
  | @quotedText quote _ _ hmodes hquote hcurly =>
      refine ⟨quotedRun_ne_nil hne hquote hcurly, ?_, ?_⟩
      · rw [State.TakesText, hmodes]
        exact ⟨hquote, hcurly⟩
      · unfold State.TakesText
        rw [State.advance, hmodes]
        rcases drop_quotedRun quote state.rest with hnil | hends | hopens
        · exact .inl hnil
        · exact .inr fun htakes => Bool.false_ne_true (htakes.1.symm.trans hends)
        · exact .inr fun htakes => Bool.false_ne_true (htakes.2.symm.trans hopens)
  | value hvalue hfound =>
      obtain ⟨name, start, outer, hmodes⟩ := hvalue.modes
      refine ⟨unquotedValue?_ne_nil hfound, ?_, .inr ?_⟩
      · rw [State.TakesText, hmodes]
        exact hvalue.awaitsValue
      · -- one value is all an equals sign waits for
        rw [State.TakesText, State.advance, hmodes]
        exact Bool.false_ne_true
  | @tagEnd name start _ _ hmodes =>
      split
      · trivial
      · rename_i hvoid
        refine ⟨name, start, _, hmodes, fun hmem => hvoid ?_⟩
        exact List.contains_iff_mem.2 hmem
  | tagParams _ hfound => exact bar_not_mem_blockParams? hfound
  | closer => split <;> trivial
  | word _ hfound => exact (word_of_wordStep? hfound).attests state.modes
  | _ => trivial

/-! ## Neighbours -/

/-- Text is not cut in two: the tokens do not both hold text of an attribute, and if both
hold text between tags then one is an escaped expression. -/
def Joins (first next : Token) : Prop :=
  ¬ (first.kind = .attributeText ∧ next.kind = .attributeText) ∧
    (first.kind = .text → next.kind = .text →
      ['\x7b', '\x7b'] <+: first.lexeme.value.toList ∨
        ['\x7b', '\x7b'] <+: next.lexeme.value.toList)

/-- Text that ends with the token does not go on in the state. -/
structure Meets (first : Token) (state : State) : Prop where
  attributeText : first.kind = .attributeText → state.rest = [] ∨ ¬ state.TakesText
  text : first.kind = .text → ['\x7b', '\x7b'] <+: first.lexeme.value.toList ∨
    state.modes = [] ∧ (state.rest = [] ∨ halts state.rest = true)

section Neighbours

variable {lines : Lines} {state : State} {kind : Kind} {value : List Char} {width : Nat}
  {modes : List OpenMode}

/-- After its own token a state meets it. -/
theorem State.meets_of_step (hne : state.rest ≠ [])
    (hstep : state.step = .emit kind value width modes) :
    Meets (state.token lines kind value width) (state.advance width modes (kind == .equals)) := by
  have hattests := State.attests_of_step hne hstep
  constructor
  · intro hkind
    obtain rfl : kind = .attributeText := hkind
    exact hattests.2.2
  · intro hkind
    obtain rfl : kind = .text := hkind
    obtain ⟨-, -, hmodes, hvalue⟩ := hattests
    rcases hvalue with hbraces | ⟨-, hhalts⟩
    · refine .inl ?_
      show _ <+: (String.ofList value).toList
      rw [String.toList_ofList]
      exact hbraces
    · exact .inr ⟨hmodes, hhalts⟩

/-- A token that meets the state joins the next token from there. -/
theorem Meets.joins {first : Token} (hmeets : Meets first state) (hne : state.rest ≠ [])
    (hstep : state.step = .emit kind value width modes) :
    Joins first (state.token lines kind value width) := by
  have hattests := State.attests_of_step hne hstep
  constructor
  · rintro ⟨hfirst, hkind⟩
    obtain rfl : kind = .attributeText := hkind
    rcases hmeets.attributeText hfirst with hnil | htakes
    · exact hne hnil
    · exact htakes hattests.2.1
  · intro hfirst hkind
    obtain rfl : kind = .text := hkind
    rcases hmeets.text hfirst with hbraces | ⟨-, hhalts⟩
    · exact .inl hbraces
    · -- where text has just ended only an escaped expression is text again
      refine .inr ?_
      show _ <+: (String.ofList value).toList
      rw [String.toList_ofList]
      obtain ⟨-, -, -, hvalue⟩ := hattests
      rcases hvalue with hbraces | ⟨hgoes, -⟩
      · exact hbraces
      · rcases hhalts with hnil | hhalts
        · exact absurd hnil hne
        · rw [hgoes] at hhalts
          cases hhalts

/-- Blanks are passed over where an attribute's text can be told from the modes alone. -/
theorem Meets.skip {first : Token} (hmeets : Meets first state) (hne : state.rest ≠ [])
    (hstep : state.step = .skip width) :
    Meets first (state.advance width state.modes state.awaitsValue) := by
  obtain ⟨⟨mode, start⟩, hhead, hmode⟩ := State.passesBlanks_of_step hstep
  obtain ⟨outer, hmodes⟩ := List.head?_eq_some_iff.1 hhead
  constructor
  · intro hkind
    refine .inr fun htakes => (hmeets.attributeText hkind).resolve_left hne ?_
    unfold State.TakesText at htakes ⊢
    rw [State.advance, hmodes] at htakes
    rw [hmodes]
    rcases hmode with ⟨name, rfl⟩ | ⟨closer, rfl⟩
    · exact htakes
    · exact htakes
  · intro hkind
    rcases hmeets.text hkind with hbraces | ⟨hnil, -⟩
    · exact .inl hbraces
    · rw [hmodes] at hnil
      cases hnil

/-- Each token of a scan joins the next, and the first one that of a state it follows. -/
theorem isChain_scanFrom (state : State) {first : Token} (hmeets : Meets first state) :
    (first :: (scanFrom lines state).tokens).IsChain Joins := by
  fun_induction traceFrom lines state generalizing first with
  | case1 state hnil =>
      rw [scanFrom_nil hnil]
      exact .singleton first
  | case2 state hne kind value width modes hstep ih =>
      rw [scanFrom_emit hne hstep]
      exact .cons_cons (hmeets.joins hne hstep) (ih (State.meets_of_step hne hstep))
  | case3 state hne width hstep ih =>
      rw [scanFrom_skip hne hstep]
      exact ih (hmeets.skip hne hstep)
  | case4 state hne fault width hstep =>
      rw [scanFrom_fail hne hstep]
      exact .singleton first

end Neighbours

/-! ## Single tokens -/

/-- What the value of a token is, by its kind. -/
def Fit (token : Token) : Prop :=
  match token.kind with
  | .path => token.lexeme.value ≠ "" ∧ ∀ c ∈ token.lexeme.value.toList, isPathChar c = true
  | .blockParams => '|' ∉ token.lexeme.value.toList
  | .text | .attributeText => token.lexeme.value ≠ ""
  | _ => True

/-- What a step attests makes its token fit by itself. -/
theorem Attests.fit {lines : Lines} {state : State} {kind : Kind} {value : List Char}
    {width : Nat} {modes : List OpenMode} (h : Attests state kind value width modes) :
    Fit (state.token lines kind value width) := by
  have hne : value ≠ [] → String.ofList value ≠ "" := by
    intro hvalue hempty
    rw [← String.ofList_nil, String.ofList_inj] at hempty
    exact hvalue hempty
  cases kind with
  | path =>
      refine ⟨hne h.1, ?_⟩
      show ∀ c ∈ (String.ofList value).toList, _
      rw [String.toList_ofList]
      exact h.2
  | blockParams =>
      show '|' ∉ (String.ofList value).toList
      rw [String.toList_ofList]
      exact h
  | text => exact hne h.1
  | attributeText => exact hne h.1
  | _ => trivial

theorem fit_scanFrom {lines : Lines} (state : State) :
    ∀ token ∈ (scanFrom lines state).tokens, Fit token := by
  fun_induction traceFrom lines state with
  | case1 state hnil =>
      rw [scanFrom_nil hnil]
      exact List.forall_mem_nil _
  | case2 state hne kind value width modes hstep ih =>
      rw [scanFrom_emit hne hstep]
      exact List.forall_mem_cons.2 ⟨(State.attests_of_step hne hstep).fit, ih⟩
  | case3 state hne width hstep ih =>
      rw [scanFrom_skip hne hstep]
      exact ih
  | case4 state hne fault width hstep =>
      rw [scanFrom_fail hne hstep]
      exact List.forall_mem_nil _

/-! ## Ends of tags -/

/-- The name of the latest tag opened, after a token. -/
def latestTag (latest : Option String) (token : Token) : Option String :=
  if token.kind = .startTag then some token.lexeme.value else latest

/-- No end of a tag leaves a void element open. -/
def LeavesNoVoid : Option String → List Token → Prop
  | _, [] => True
  | latest, token :: rest =>
      (token.kind = .tagEnd → ∀ name ∈ latest, name ∉ voidElements) ∧
        LeavesNoVoid (latestTag latest token) rest

theorem leavesNoVoid_append {latest : Option String} {front back : List Token} :
    LeavesNoVoid latest (front ++ back) ↔
      LeavesNoVoid latest front ∧ LeavesNoVoid (front.foldl latestTag latest) back := by
  induction front generalizing latest with
  | nil => simp [LeavesNoVoid]
  | cons token rest ih =>
      rw [List.cons_append, LeavesNoVoid, LeavesNoVoid, ih, List.foldl_cons, and_assoc]

/-- The tags that are open bear the latest name. -/
def Named (latest : Option String) (modes : List OpenMode) : Prop :=
  ∀ opened ∈ modes, ∀ name, opened.mode = .tag name → latest = some name

/-- A step that opens a tag makes its name the latest, so open tags still bear the latest name. -/
theorem named_of_step {lines : Lines} {state : State} {kind : Kind} {value : List Char}
    {width : Nat} {modes : List OpenMode} {latest : Option String}
    (hattests : Attests state kind value width modes) (hmoves : Moves state.modes kind value modes)
    (hnamed : Named latest state.modes) :
    Named (latestTag latest (state.token lines kind value width)) modes := by
  by_cases hkind : kind = .startTag
  · -- a tag is opened where no construct is open, so it is the only one
    subst hkind
    have hempty : state.modes = [] := hattests
    have hlatest : latestTag latest (state.token lines .startTag value width) =
        some (String.ofList value) := if_pos rfl
    rw [hlatest]
    rw [hempty] at hmoves
    cases hmoves with
    | keep hkeeps => cases hkeeps []
    | enter opened hopened =>
        intro other hmem name hname
        obtain rfl := List.mem_singleton.1 hmem
        rw [hname] at hopened
        obtain ⟨-, rfl⟩ := hopened
        exact congrArg some String.ofList_toList
    | leave opened outer hmodes hclosed => cases hmodes
  · have hlatest : latestTag latest (state.token lines kind value width) = latest := if_neg hkind
    rw [hlatest]
    cases hmoves with
    | keep hkeeps => exact hnamed
    | enter opened hopened =>
        intro other hmem name hname
        rcases List.mem_cons.1 hmem with rfl | hmem
        · rw [hname] at hopened
          exact absurd hopened.1 hkind
        · exact hnamed other hmem name hname
    | leave opened outer hmodes hclosed =>
        intro other hmem name hname
        rw [hmodes] at hnamed
        exact hnamed other (List.mem_cons_of_mem _ hmem) name hname

theorem leavesNoVoid_scanFrom {lines : Lines} (state : State) {latest : Option String}
    (hnamed : Named latest state.modes) : LeavesNoVoid latest (scanFrom lines state).tokens := by
  fun_induction traceFrom lines state generalizing latest with
  | case1 state hnil =>
      rw [scanFrom_nil hnil]
      trivial
  | case2 state hne kind value width modes hstep ih =>
      have hattests := State.attests_of_step hne hstep
      rw [scanFrom_emit hne hstep]
      refine ⟨?_, ih (named_of_step hattests (State.moves_of_step hstep) hnamed)⟩
      intro hkind name hname
      obtain rfl : kind = .tagEnd := hkind
      obtain ⟨found, start, outer, hmodes, hvoid⟩ := hattests
      have hlatest :=
        hnamed ⟨.tag found, start⟩ (by rw [hmodes]; exact List.mem_cons_self) found rfl
      rw [hlatest] at hname
      obtain rfl := Option.some.inj hname
      exact hvoid
  | case3 state hne width hstep ih =>
      rw [scanFrom_skip hne hstep]
      exact ih hnamed
  | case4 state hne fault width hstep =>
      rw [scanFrom_fail hne hstep]
      trivial

/-! ## Texts -/

/-- What holds of the tokens of every text, and of each stretch of them. -/
structure Coherent (tokens : List Token) : Prop where
  fit : ∀ token ∈ tokens, Fit token
  joins : tokens.IsChain Joins
  leaves : ∃ latest, LeavesNoVoid latest tokens

theorem Coherent.of_isInfix {tokens stretch : List Token} (h : Coherent tokens)
    (hstretch : stretch <:+: tokens) : Coherent stretch := by
  obtain ⟨front, back, rfl⟩ := hstretch
  obtain ⟨hfit, hjoins, latest, hleaves⟩ := h
  rw [List.append_assoc] at hleaves
  obtain ⟨-, hleaves⟩ := leavesNoVoid_append.1 hleaves
  refine ⟨?_, ?_, _, (leavesNoVoid_append.1 hleaves).1⟩
  · intro token hmem
    exact hfit token (List.mem_append_left _ (List.mem_append_right _ hmem))
  · exact hjoins.left_of_append.right_of_append

theorem Coherent.append {front back : List Token} (h : Coherent (front ++ back)) :
    Coherent front ∧ Coherent back :=
  ⟨h.of_isInfix (List.prefix_append front back).isInfix,
    h.of_isInfix (List.suffix_append front back).isInfix⟩

theorem Coherent.tail {token : Token} {rest : List Token} (h : Coherent (token :: rest)) :
    Coherent rest :=
  h.of_isInfix (List.suffix_cons token rest).isInfix

/-- The tokens of a text are coherent. -/
theorem coherent_ofText (source : String) : Coherent (ofText source).tokens := by
  refine ⟨fit_scanFrom _, ?_, none, leavesNoVoid_scanFrom _ nofun⟩
  -- a token that holds no text may stand before the first one
  have hmeets : Meets ⟨.equals, default⟩ (State.initial source.toList) := ⟨nofun, nofun⟩
  have hchain : (⟨.equals, default⟩ :: (ofText source).tokens).IsChain Joins :=
    isChain_scanFrom _ hmeets
  exact hchain.tail

end TemplateUsage.Scan
