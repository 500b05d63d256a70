import TemplateUsage.Proofs.Scan.Run

set_option autoImplicit false

/-!
# The stack of modes

The scanner has content at the bottom of its stack and on top of it one of six nestings of
open constructs, each opened further on in the text than the one around it. `Tracked` is the
invariant. It is kept by all that a token can do to the stack (`Transition`), so by every step
(`Tracked.emit`, `Tracked.skip`) and by every run (`Tracked.run`). Main statement:
`run_keeps_mode_stack`.
-/

namespace TemplateUsage

/-- Sorts of mode: content at the bottom, a construct above it. -/
inductive ModeSort where
  | content
  | construct (construct : Construct)
  deriving DecidableEq, Repr

/-- The nestings of modes, outermost first. -/
def ModeSort.stacks : List (List ModeSort) :=
  [[.content],
    [.content, .construct .expression],
    [.content, .construct .tag],
    [.content, .construct .tag, .construct .expression],
    [.content, .construct .tag, .construct .quoted],
    [.content, .construct .tag, .construct .quoted, .construct .expression]]

/-- The same nestings without the bottom, innermost first. -/
def Construct.nestings : List (List Construct) :=
  [[], [.expression], [.tag], [.expression, .tag], [.quoted, .tag], [.expression, .quoted, .tag]]

theorem Construct.cons_mem_nestings {construct : Construct} {nesting : List Construct}
    (h : nesting ∈ nestings) (henters : construct.entersIn nesting.head? = true) :
    construct :: nesting ∈ nestings := by
  revert nesting
  cases construct <;> decide

theorem Construct.tail_mem_nestings : ∀ nesting ∈ nestings, nesting.tail ∈ nestings := by decide

/-- The kinds of token that leave a construct. -/
def Kind.closers : List Kind :=
  [.tagEnd, .tagSelfClose, .voidTagEnd, .quoteClose, .closeCurly, .closeTriple]

theorem Kind.Keeps.not_mem_closers {kind : Kind} (h : kind.Keeps) : kind ∉ Kind.closers := by
  intro hmem
  have hleaves : ∀ closer ∈ Kind.closers, closer.reshape [.tag] ≠ [.tag] := by decide
  exact hleaves kind hmem (h [.tag])

theorem Mode.ClosedBy.mem_closers {mode : Mode} {kind : Kind} {value : List Char}
    (h : mode.ClosedBy kind value) : kind ∈ Kind.closers := by
  cases mode with
  | tag name => rcases h with ⟨rfl, -⟩ | ⟨rfl | rfl, -⟩ <;> decide
  | quoted quote =>
      obtain ⟨rfl, -⟩ := h
      decide
  | expression closer =>
      cases closer with
      | double =>
          obtain ⟨rfl, -⟩ := h
          decide
      | triple =>
          obtain ⟨rfl, -⟩ := h
          decide

theorem Mode.OpenedBy.not_mem_closers {mode : Mode} {kind : Kind} {value : List Char}
    (h : mode.OpenedBy kind value) : kind ∉ Kind.closers := by
  intro hmem
  have hnil : ∀ closer ∈ Kind.closers, closer.reshape [] = [] := by decide
  have hopen := h.reshape_eq []
  rw [hnil kind hmem] at hopen
  cases hopen

namespace Scan

/-- The sorts of the modes, outermost first. -/
def State.modeSorts (state : State) : List ModeSort :=
  .content :: ((constructs state.modes).map ModeSort.construct).reverse

/-! ## The awaited value -/

/-- Whether a value is awaited after a token, as each mode sees to it: in a tag an equals
sign asks for a value, and any token in the place of the value answers it. The other modes
leave the question alone. -/
def State.awaitsAfter (state : State) (kind : Kind) : Bool :=
  match (constructs state.modes).head? with
  | some .tag => !state.awaitsValue && kind == .equals
  | _ => state.awaitsValue

theorem State.awaitsAfter_of_tag {state : State} (kind : Kind)
    (htag : (constructs state.modes).head? = some .tag) :
    state.awaitsAfter kind = (!state.awaitsValue && kind == .equals) := by
  rw [State.awaitsAfter, htag]

theorem State.awaitsAfter_of_ne_tag {state : State} (kind : Kind)
    (htag : (constructs state.modes).head? ≠ some .tag) :
    state.awaitsAfter kind = state.awaitsValue := by
  unfold State.awaitsAfter
  split
  · exact absurd ‹_› htag
  · rfl

/-- An equals sign is met in a tag, and not in the place of a value. -/
theorem Transition.of_equals {state : State} {value : List Char} {modes : List OpenMode}
    (h : Transition state .equals value modes) :
    modes = state.modes ∧ (constructs state.modes).head? = some .tag ∧
      state.awaitsValue = false := by
  cases h with
  | keep _ hequals => exact ⟨rfl, hequals rfl⟩
  | enter mode hopened _ _ =>
      have hreshape : [] = mode.construct :: [] := hopened.reshape_eq []
      cases hreshape
  | leave opened outer _ hclosed _ => exact absurd hclosed.mem_closers (by decide)

/-- An equals sign asks for a value, and every other token leaves none awaited, where a value
is awaited in tags only. -/
theorem Transition.awaitsAfter_eq {state : State} {kind : Kind} {value : List Char}
    {modes : List OpenMode} (h : Transition state kind value modes)
    (hawaits : state.awaitsValue = true → (constructs state.modes).head? = some .tag) :
    state.awaitsAfter kind = (kind == .equals) := by
  by_cases hkind : kind = .equals
  · subst hkind
    obtain ⟨-, htag, hnone⟩ := h.of_equals
    rw [State.awaitsAfter_of_tag _ htag, hnone]
    rfl
  · rw [beq_false_of_ne hkind]
    by_cases htag : (constructs state.modes).head? = some .tag
    · rw [State.awaitsAfter_of_tag _ htag, beq_false_of_ne hkind, Bool.and_false]
    · rw [State.awaitsAfter_of_ne_tag _ htag]
      exact eq_false_of_ne_true fun h => htag (hawaits h)

/-! ## The invariant -/

/-- The last opening tag among pieces. -/
def lastTag? (pieces : List Piece) : Option Piece :=
  (pieces.filter fun piece => piece.kind == .startTag).getLast?

theorem lastTag?_append_tag (pieces : List Piece) {piece : Piece}
    (h : piece.kind = .startTag) : lastTag? (pieces ++ [piece]) = some piece := by
  simp [lastTag?, h]

theorem lastTag?_append_of_ne (pieces : List Piece) {piece : Piece}
    (h : piece.kind ≠ .startTag) : lastTag? (pieces ++ [piece]) = lastTag? pieces := by
  simp [lastTag?, h]

/-- What holds of the state that the scanner is in after it has emitted the pieces. -/
structure Tracked (text : List Char) (pieces : List Piece) (state : State) : Prop where
  rest : state.rest = text.drop state.offset
  nested : constructs state.modes ∈ Construct.nestings
  ascending : (state.offset :: state.modes.map OpenMode.start).Pairwise (· > ·)
  opened : ∀ opened ∈ state.modes, opened.mode.opener <+: text.drop opened.start
  named : ∀ opened ∈ state.modes, ∀ name, opened.mode = .tag name →
    ∃ piece ∈ lastTag? pieces, piece.value = name.toList ∧ piece.start = opened.start
  awaits : state.awaitsValue = true → (constructs state.modes).head? = some .tag ∧
    ∃ piece ∈ pieces.getLast?, piece.kind = .equals

theorem tracked_initial (text : List Char) : Tracked text [] (.initial text) where
  rest := rfl
  nested := List.mem_cons_self
  ascending := .cons nofun .nil
  opened := nofun
  named := nofun
  awaits := nofun

section Keeping

variable {text : List Char} {pieces : List Piece} {state : State} {kind : Kind}
  {value : List Char} {width : Nat} {modes : List OpenMode}

theorem Tracked.nested_emit (h : Tracked text pieces state)
    (htransition : Transition state kind value modes) : constructs modes ∈ Construct.nestings := by
  cases htransition with
  | keep _ _ => exact h.nested
  | enter mode _ henters _ => exact Construct.cons_mem_nestings h.nested henters
  | leave opened outer hmodes _ _ =>
      have htail := Construct.tail_mem_nestings _ h.nested
      rw [hmodes] at htail
      exact htail

theorem Tracked.ascending_emit (h : Tracked text pieces state)
    (htransition : Transition state kind value modes) (hwidth : 0 < width) :
    ((state.offset + width) :: modes.map OpenMode.start).Pairwise (· > ·) := by
  -- the offset moves on, past the place where a construct may just have been entered
  have hpast : ∀ {starts : List Nat}, (state.offset :: starts).Pairwise (· > ·) →
      ((state.offset + width) :: state.offset :: starts).Pairwise (· > ·) := by
    intro starts hstarts
    refine hstarts.cons fun start hstart => ?_
    rcases List.mem_cons.1 hstart with rfl | hstart
    · exact Nat.lt_add_of_pos_right hwidth
    · exact Nat.lt_add_right width (List.rel_of_pairwise_cons hstarts hstart)
  have hpassed := hpast h.ascending
  cases htransition with
  | keep _ _ => exact hpassed.sublist (.cons_cons _ (List.sublist_cons_self _ _))
  | enter mode _ _ _ => exact hpassed
  | leave opened outer hmodes _ _ =>
      rw [hmodes] at hpassed
      exact hpassed.sublist
        (.cons_cons _ ((List.sublist_cons_self _ _).trans (List.sublist_cons_self _ _)))

theorem Tracked.opened_emit (h : Tracked text pieces state)
    (htransition : Transition state kind value modes) :
    ∀ opened ∈ modes, opened.mode.opener <+: text.drop opened.start := by
  cases htransition with
  | keep _ _ => exact h.opened
  | enter mode _ _ hopener =>
      rw [h.rest] at hopener
      exact List.forall_mem_cons.2 ⟨hopener, h.opened⟩
  | leave opened outer hmodes _ _ =>
      intro other hmem
      refine h.opened other ?_
      rw [hmodes]
      exact List.mem_cons_of_mem _ hmem

/-- A tag is entered in content, so the tag that is open is the last one. -/
theorem Tracked.named_emit (h : Tracked text pieces state)
    (htransition : Transition state kind value modes) :
    ∀ opened ∈ modes, ∀ name, opened.mode = .tag name →
      ∃ piece ∈ lastTag? (pieces ++ [⟨kind, value, state.offset, state.offset + width⟩]),
        piece.value = name.toList ∧ piece.start = opened.start := by
  by_cases hkind : kind = .startTag
  · subst hkind
    rw [lastTag?_append_tag pieces rfl]
    cases htransition with
    | keep hkeeps _ => cases hkeeps []
    | enter mode hopened henters _ =>
        intro other hmem name hname
        refine ⟨_, rfl, ?_⟩
        have hconstruct : mode.construct = .tag := by
          have hreshape : [Construct.tag] = [mode.construct] := hopened.reshape_eq []
          exact (List.cons.inj hreshape).1.symm
        rw [hconstruct] at henters
        -- nothing is open in content, so the tag is the only construct afterwards
        have hempty : state.modes = [] := by
          rw [← constructs_eq_nil, ← List.head?_eq_none_iff]
          exact eq_of_beq henters
        rw [hempty] at hmem
        obtain rfl := List.mem_singleton.1 hmem
        obtain rfl : mode = .tag name := hname
        exact ⟨hopened.2, rfl⟩
    | leave opened outer _ hclosed _ => exact absurd hclosed.mem_closers (by decide)
  · have hlast : lastTag? (pieces ++ [⟨kind, value, state.offset, state.offset + width⟩]) =
        lastTag? pieces := lastTag?_append_of_ne pieces hkind
    rw [hlast]
    cases htransition with
    | keep _ _ => exact h.named
    | enter mode hopened _ _ =>
        refine List.forall_mem_cons.2 ⟨fun name hname => ?_, h.named⟩
        obtain rfl : mode = .tag name := hname
        exact absurd hopened.1 hkind
    | leave opened outer hmodes _ _ =>
        intro other hmem
        refine h.named other ?_
        rw [hmodes]
        exact List.mem_cons_of_mem _ hmem

/-- A step that emits a token keeps the invariant. -/
theorem Tracked.emit (h : Tracked text pieces state) (hne : state.rest ≠ [])
    (hstep : state.step = .emit kind value width modes) :
    Tracked text (pieces ++ [⟨kind, value, state.offset, state.offset + width⟩])
      (state.advance width modes (kind == .equals)) := by
  have htransition := State.transition_of_step hstep
  have hadvances := state.step_advances hne
  rw [hstep] at hadvances
  refine ⟨State.rest_advance h.rest _ _ _, h.nested_emit htransition,
    h.ascending_emit htransition hadvances, h.opened_emit htransition,
    h.named_emit htransition, fun hawaits => ?_⟩
  obtain rfl : kind = .equals := eq_of_beq hawaits
  obtain ⟨rfl, htag, -⟩ := htransition.of_equals
  exact ⟨htag, _, List.getLast?_concat, rfl⟩

/-- A step over blanks keeps the invariant: only the offset moves. -/
theorem Tracked.skip (h : Tracked text pieces state) (width : Nat) :
    Tracked text pieces (state.advance width state.modes state.awaitsValue) := by
  refine ⟨State.rest_advance h.rest _ _ _, h.nested, ?_, h.opened, h.named, h.awaits⟩
  refine h.ascending.tail.cons fun start hstart => ?_
  exact Nat.lt_add_right width (List.rel_of_pairwise_cons h.ascending hstart)

/-- A run keeps the invariant. -/
theorem Tracked.run {final : State} {more : List Piece} (h : Tracked text pieces state)
    (hrun : Run state more final) : Tracked text (pieces ++ more) final := by
  induction hrun generalizing pieces with
  | refl state => rwa [List.append_nil]
  | emit hne hstep _ ih =>
      have hnext := ih (h.emit hne hstep)
      rwa [List.append_assoc] at hnext
  | skip _ _ _ ih => exact ih (h.skip _)

end Keeping

/-! ## Runs from the beginning of a text -/

section Leaving

variable {state : State} {kind : Kind} {value : List Char} {modes : List OpenMode}

/-- A closing token leaves the innermost construct, which it closes. -/
theorem Transition.leaves (h : Transition state kind value modes) (hkind : kind ∈ Kind.closers) :
    ∃ opened, state.modes = opened :: modes ∧ opened.mode.ClosedBy kind value := by
  cases h with
  | keep hkeeps _ => exact absurd hkind hkeeps.not_mem_closers
  | enter mode hopened _ _ => exact absurd hkind hopened.not_mem_closers
  | leave opened outer hmodes hclosed _ => exact ⟨opened, hmodes, hclosed⟩

/-- Any other token leaves none. -/
theorem Transition.isSuffix (h : Transition state kind value modes) (hkind : kind ∉ Kind.closers) :
    state.modes <:+ modes := by
  cases h with
  | keep _ _ => exact List.suffix_rfl
  | enter mode _ _ _ => exact List.suffix_cons _ _
  | leave opened outer _ hclosed _ => exact absurd hclosed.mem_closers hkind

/-- The end of a tag is that of a void element if the tag it ends has such a name. -/
theorem Transition.void_iff (h : Transition state kind value modes)
    (hkind : kind = .tagEnd ∨ kind = .voidTagEnd) :
    ∃ opened ∈ state.modes, ∃ name, opened.mode = .tag name ∧
      (kind = .voidTagEnd ↔ name ∈ voidElements) := by
  have hcloses : kind ∈ Kind.closers := by rcases hkind with rfl | rfl <;> decide
  have hself : kind ≠ .tagSelfClose := by rcases hkind with rfl | rfl <;> decide
  cases h with
  | keep hkeeps _ => exact absurd hcloses hkeeps.not_mem_closers
  | enter mode hopened _ _ => exact absurd hcloses hopened.not_mem_closers
  | leave opened outer hmodes hclosed hvoid =>
      refine ⟨opened, hmodes ▸ List.mem_cons_self, ?_⟩
      -- only a tag is left by the end of a tag
      cases hmode : opened.mode with
      | tag name => exact ⟨name, rfl, hvoid name hmode hself⟩
      | quoted quote =>
          rw [hmode] at hclosed
          rcases hkind with rfl | rfl <;> cases hclosed.1
      | expression closer =>
          rw [hmode] at hclosed
          cases closer <;> rcases hkind with rfl | rfl <;> cases hclosed.1

end Leaving

theorem State.modeSorts_mem {state : State} (h : constructs state.modes ∈ Construct.nestings) :
    state.modeSorts ∈ ModeSort.stacks := by
  have hstacks : ∀ nesting ∈ Construct.nestings,
      ModeSort.content :: (nesting.map ModeSort.construct).reverse ∈ ModeSort.stacks := by decide
  exact hstacks _ h

/-- What the stack of modes is like wherever a run from the beginning of a text has led. The
modes are one of six nestings with content at the bottom. The constructs were opened at
increasing offsets before the one reached, each at the characters it begins with, and a tag
bears the name of the last opening tag. A value is awaited in a tag and right after an
equals sign only. The next token leaves a construct only if one is open, the innermost one,
and nothing else is taken off the stack; it is the end of a void element exactly if the last
opening tag is that of one; and what it does to the awaited value is what the mode it is
found in sees to. -/
theorem run_keeps_mode_stack {source : String} {pieces : List Piece} {state : State}
    (hrun : Run (.initial source.toList) pieces state) :
    pieces.map (Piece.token (Lines.ofText source.toList)) <+: (ofText source).tokens ∧
    state.modeSorts ∈ ModeSort.stacks ∧
    ((state.modes.map OpenMode.start).reverse ++ [state.offset]).Pairwise (· < ·) ∧
    (∀ opened ∈ state.modes, opened.mode.opener <+: source.toList.drop opened.start) ∧
    (∀ opened ∈ state.modes, ∀ name, opened.mode = .tag name →
      ∃ piece ∈ lastTag? pieces, piece.value = name.toList ∧ piece.start = opened.start) ∧
    (state.awaitsValue = true → (constructs state.modes).head? = some .tag ∧
      ∃ piece ∈ pieces.getLast?, piece.kind = .equals) ∧
    ∀ kind value width modes, state.step = .emit kind value width modes →
      (kind ∈ Kind.closers →
        ∃ opened, state.modes = opened :: modes ∧ opened.mode.ClosedBy kind value) ∧
      (kind ∉ Kind.closers → state.modes <:+ modes) ∧
      (kind = .tagEnd ∨ kind = .voidTagEnd → ∃ piece ∈ lastTag? pieces,
        (kind = .voidTagEnd ↔ String.ofList piece.value ∈ voidElements)) ∧
      (state.advance width modes (kind == .equals)).awaitsValue = state.awaitsAfter kind := by
  have htracked : Tracked source.toList pieces state := (tracked_initial _).run hrun
  refine ⟨?_, State.modeSorts_mem htracked.nested, ?_, htracked.opened, htracked.named,
    htracked.awaits, fun kind value width modes hstep => ?_⟩
  · rw [ofText, scanFrom_of_run _ hrun]
    exact List.prefix_append _ _
  · rw [← List.reverse_cons, List.pairwise_reverse]
    exact htracked.ascending
  · have htransition := State.transition_of_step hstep
    refine ⟨htransition.leaves, htransition.isSuffix, fun hkind => ?_,
      (htransition.awaitsAfter_eq fun h => (htracked.awaits h).1).symm⟩
    obtain ⟨opened, hmem, name, hname, hvoid⟩ := htransition.void_iff hkind
    obtain ⟨piece, hpiece, hvalue, -⟩ := htracked.named opened hmem name hname
    rw [← String.ofList_toList (s := name), ← hvalue] at hvoid
    exact ⟨piece, hpiece, hvoid⟩

/-- An image with an expression in a quoted value. -/
def filledImage : String := "<img a= '\x7b\x7bb\x7d\x7d'>"

/-- In the expression all four modes are on the stack, opened where they should be; after the
value the end of the tag is still that of a void element. -/
theorem run_keeps_mode_stack_filledImage :
    ∃ pieces inner more outer modes,
      Run (.initial filledImage.toList) pieces inner ∧ Run inner more outer ∧
      inner.modeSorts =
        [.content, .construct .tag, .construct .quoted, .construct .expression] ∧
      ((inner.modes.map OpenMode.start).reverse ++ [inner.offset]).Pairwise (· < ·) ∧
      (∀ opened ∈ inner.modes, opened.mode.opener <+: filledImage.toList.drop opened.start) ∧
      outer.step = .emit .voidTagEnd ['>'] 1 modes ∧
      ∃ piece ∈ lastTag? (pieces ++ more), String.ofList piece.value ∈ voidElements := by
  have hinner : ∃ pieces inner, Run (.initial filledImage.toList) pieces inner ∧
      inner = ⟨11, ['b', '\x7d', '\x7d', '\'', '>'],
        [⟨.expression .double, 9⟩, ⟨.quoted '\'', 8⟩, ⟨.tag "img", 0⟩], false⟩ :=
    ⟨_, _, .emit (by decide) rfl <| .skip (by decide) rfl <| .emit (by decide) rfl <|
      .emit (by decide) rfl <| .skip (by decide) rfl <| .emit (by decide) rfl <|
      .emit (by decide) rfl <| .refl _, rfl⟩
  obtain ⟨pieces, inner, hinner, rfl⟩ := hinner
  have houter : ∃ more outer, Run ⟨11, ['b', '\x7d', '\x7d', '\'', '>'],
        [⟨.expression .double, 9⟩, ⟨.quoted '\'', 8⟩, ⟨.tag "img", 0⟩], false⟩ more outer ∧
      outer = ⟨15, ['>'], [⟨.tag "img", 0⟩], false⟩ :=
    ⟨_, _, .emit (by decide) rfl <| .emit (by decide) rfl <| .emit (by decide) rfl <| .refl _,
      rfl⟩
  obtain ⟨more, outer, houter, rfl⟩ := houter
  obtain ⟨-, -, hascending, hopened, -⟩ := run_keeps_mode_stack hinner
  obtain ⟨-, -, -, -, -, -, hnext⟩ := run_keeps_mode_stack (hinner.trans houter)
  obtain ⟨-, -, hvoid, -⟩ := hnext .voidTagEnd ['>'] 1 [] rfl
  obtain ⟨piece, hpiece, hiff⟩ := hvoid (.inr rfl)
  exact ⟨pieces, _, more, _, [], hinner, houter, rfl, hascending, hopened, rfl, piece, hpiece,
    hiff.1 rfl⟩

end Scan

end TemplateUsage
