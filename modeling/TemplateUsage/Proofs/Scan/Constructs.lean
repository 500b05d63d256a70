import Mathlib.Data.List.Basic
import TemplateUsage.Proofs.Scan.Coverage

set_option autoImplicit false

/-!
# What a token does to the open constructs

A token enters a construct, leaves the innermost one or keeps them all, and its kind
says which (`Kind.reshape`). A token that enters or leaves a construct is spelled as
the construct wants it (`Mode.OpenedBy`, `Mode.ClosedBy`). `Transition` says all that a
token can do to the open constructs and to the awaited value. Main statements:
`State.transition_of_step` and `Moves.constructs_eq`.
-/

namespace TemplateUsage

/-- Sorts of construct the scanner may be inside of. -/
inductive Construct where
  | tag
  | quoted
  | expression
  deriving DecidableEq, Repr

/-- The sort of a mode. -/
def Mode.construct : Mode → Construct
  | .tag _ => .tag
  | .quoted _ => .quoted
  | .expression _ => .expression

/-- The constructs open after a token of this kind, innermost first. -/
def Kind.reshape : Kind → List Construct → List Construct
  | .startTag, opened => .tag :: opened
  | .quoteOpen, opened => .quoted :: opened
  | .openCurly, opened | .openTriple, opened | .openBlock, opened | .openEndBlock, opened
  | .openElse, opened => .expression :: opened
  | .tagEnd, opened | .tagSelfClose, opened | .voidTagEnd, opened | .quoteClose, opened
  | .closeCurly, opened | .closeTriple, opened => opened.tail
  | _, opened => opened

/-- Whether a construct is entered right inside of another one, or in content. -/
def Construct.entersIn : Construct → Option Construct → Bool
  | .tag, outer => outer == none
  | .quoted, outer => outer == some .tag
  | .expression, outer => outer != some .expression

/-- The kind enters no construct and leaves none. -/
def Kind.Keeps (kind : Kind) : Prop := ∀ opened, kind.reshape opened = opened

/-- How a token that enters a construct is spelled. -/
def Mode.OpenedBy : Mode → Kind → List Char → Prop
  | .tag name, kind, value => kind = .startTag ∧ value = name.toList
  | .quoted quote, kind, value =>
      kind = .quoteOpen ∧ value = [quote] ∧ (quote = '"' ∨ quote = '\'')
  | .expression .double, kind, value =>
      kind ∈ [.openCurly, .openBlock, .openEndBlock, .openElse] ∧ ['\x7b', '\x7b'] <+: value
  | .expression .triple, kind, value => kind = .openTriple ∧ ['\x7b', '\x7b'] <+: value

/-- How a token that leaves a construct is spelled. -/
def Mode.ClosedBy : Mode → Kind → List Char → Prop
  | .tag _, kind, value =>
      (kind = .tagSelfClose ∧ value = ['/', '>']) ∨
        ((kind = .tagEnd ∨ kind = .voidTagEnd) ∧ value = ['>'])
  | .quoted quote, kind, value => kind = .quoteClose ∧ value = [quote]
  | .expression .double, kind, value => kind = .closeCurly ∧ ['\x7d', '\x7d'] <:+ value
  | .expression .triple, kind, value => kind = .closeTriple ∧ ['\x7d', '\x7d'] <:+ value

/-- The characters a construct begins with. -/
def Mode.opener : Mode → List Char
  | .tag _ => ['<']
  | .quoted quote => [quote]
  | .expression _ => ['\x7b', '\x7b']

/-- The character at which a construct can be left. -/
def Mode.closing : Mode → Char
  | .tag _ => '>'
  | .quoted quote => quote
  | .expression _ => '\x7d'

theorem Mode.ClosedBy.closing_mem {mode : Mode} {kind : Kind} {value : List Char}
    (h : mode.ClosedBy kind value) : mode.closing ∈ value := by
  cases mode with
  | tag name =>
      rcases h with ⟨-, rfl⟩ | ⟨-, rfl⟩
      · exact List.mem_cons_of_mem _ List.mem_cons_self
      · exact List.mem_cons_self
  | quoted quote =>
      obtain ⟨-, rfl⟩ := h
      exact List.mem_cons_self
  | expression closer => cases closer <;> exact h.2.subset List.mem_cons_self

/-- A token that leaves a construct is written as its value. -/
theorem Mode.ClosedBy.written {mode : Mode} {kind : Kind} {value slice : List Char}
    (h : mode.ClosedBy kind value) (hwritten : Scan.Written kind value slice) : slice = value := by
  cases mode with
  | tag name => rcases h with ⟨rfl, -⟩ | ⟨rfl | rfl, -⟩ <;> exact hwritten
  | quoted quote =>
      obtain ⟨rfl, -⟩ := h
      exact hwritten
  | expression closer =>
      cases closer with
      | double =>
          obtain ⟨rfl, -⟩ := h
          exact hwritten
      | triple =>
          obtain ⟨rfl, -⟩ := h
          exact hwritten

/-- The token that opens a mode opens the construct of the mode. -/
theorem Mode.OpenedBy.reshape_eq {mode : Mode} {kind : Kind} {value : List Char}
    (h : mode.OpenedBy kind value) (opened : List Construct) :
    kind.reshape opened = mode.construct :: opened := by
  cases mode with
  | tag name =>
      obtain ⟨rfl, -⟩ := h
      rfl
  | quoted quote =>
      obtain ⟨rfl, -⟩ := h
      rfl
  | expression closer =>
      cases closer with
      | double =>
          obtain ⟨hkind, -⟩ := h
          simp only [List.mem_cons, List.not_mem_nil, or_false] at hkind
          rcases hkind with rfl | rfl | rfl | rfl <;> rfl
      | triple =>
          obtain ⟨rfl, -⟩ := h
          rfl

/-- The token that closes a mode closes the construct of the mode. -/
theorem Mode.ClosedBy.reshape_eq {mode : Mode} {kind : Kind} {value : List Char}
    (h : mode.ClosedBy kind value) (opened : List Construct) :
    kind.reshape (mode.construct :: opened) = opened := by
  cases mode with
  | tag name => rcases h with ⟨rfl, -⟩ | ⟨rfl | rfl, -⟩ <;> rfl
  | quoted quote =>
      obtain ⟨rfl, -⟩ := h
      rfl
  | expression closer =>
      cases closer with
      | double =>
          obtain ⟨rfl, -⟩ := h
          rfl
      | triple =>
          obtain ⟨rfl, -⟩ := h
          rfl

namespace Scan

/-- The sorts of the open constructs, innermost first. -/
def constructs (modes : List OpenMode) : List Construct := modes.map fun opened =>
  opened.mode.construct

@[simp] theorem constructs_nil : constructs [] = [] := rfl

@[simp] theorem constructs_cons (opened : OpenMode) (modes : List OpenMode) :
    constructs (opened :: modes) = opened.mode.construct :: constructs modes := rfl

theorem constructs_eq_nil {modes : List OpenMode} : constructs modes = [] ↔ modes = [] :=
  List.map_eq_nil_iff

/-- What a token with this value does to the open constructs. -/
inductive Moves (modes : List OpenMode) (kind : Kind) (value : List Char) :
    List OpenMode → Prop where
  | keep : kind.Keeps → Moves modes kind value modes
  | enter (opened : OpenMode) :
      opened.mode.OpenedBy kind value → Moves modes kind value (opened :: modes)
  | leave (opened : OpenMode) (outer : List OpenMode) :
      modes = opened :: outer → opened.mode.ClosedBy kind value → Moves modes kind value outer

/-- The kind of a token says which constructs are open after it. -/
theorem Moves.constructs_eq {modes next : List OpenMode} {kind : Kind} {value : List Char}
    (h : Moves modes kind value next) : constructs next = kind.reshape (constructs modes) := by
  cases h with
  | keep hkeeps => exact (hkeeps _).symm
  | enter opened hopened => exact (hopened.reshape_eq _).symm
  | leave opened outer hmodes hclosed =>
      subst hmodes
      exact (hclosed.reshape_eq _).symm

/-! ## Steps -/

/-- What a token with this value, found in the state, can do: keep the open constructs,
enter one that may stand there, at characters it begins with, or leave the innermost one.
An equals sign is met in a tag only, and not in the place of a value. -/
inductive Transition (state : State) (kind : Kind) (value : List Char) :
    List OpenMode → Prop where
  | keep : kind.Keeps →
      (kind = .equals →
        (constructs state.modes).head? = some .tag ∧ state.awaitsValue = false) →
      Transition state kind value state.modes
  | enter (mode : Mode) : mode.OpenedBy kind value →
      mode.construct.entersIn (constructs state.modes).head? = true →
      mode.opener <+: state.rest →
      Transition state kind value (⟨mode, state.offset⟩ :: state.modes)
  | leave (opened : OpenMode) (outer : List OpenMode) : state.modes = opened :: outer →
      opened.mode.ClosedBy kind value →
      (∀ name, opened.mode = .tag name → kind ≠ .tagSelfClose →
        (kind = .voidTagEnd ↔ name ∈ voidElements)) →
      Transition state kind value outer

/-- A transition of the scanner is a move of the modes alone. -/
theorem Transition.moves {state : State} {kind : Kind} {value : List Char} {modes : List OpenMode}
    (h : Transition state kind value modes) : Moves state.modes kind value modes := by
  cases h with
  | keep hkeeps => exact .keep hkeeps
  | enter mode hopened => exact .enter _ hopened
  | leave opened _ hmodes hclosed => exact .leave opened _ hmodes hclosed

/-- Braces that open an expression are spelled as it wants. -/
theorem Opener.openedBy {kind : Kind} {closer : Closer} {more rest : List Char}
    (h : Opener kind closer more rest) (left : List Char) :
    (Mode.expression closer).OpenedBy kind ('\x7b' :: '\x7b' :: (left ++ more)) := by
  have hbraces : ['\x7b', '\x7b'] <+: '\x7b' :: '\x7b' :: (left ++ more) := ⟨left ++ more, rfl⟩
  cases h with
  | markedTriple | triple => exact ⟨rfl, hbraces⟩
  | _ => exact ⟨by decide, hbraces⟩

theorem State.AllowsBraces.entersIn {state : State} (h : state.AllowsBraces) :
    Construct.expression.entersIn (constructs state.modes).head? = true := by
  unfold State.AllowsBraces at h
  split at h
  · exact h.elim
  · rename_i hmodes
    rw [hmodes]
    rfl
  · rename_i hexpression _
    cases hmodes : state.modes with
    | nil => rfl
    | cons opened outer =>
        obtain ⟨mode, start⟩ := opened
        cases mode with
        | expression closer => exact absurd hmodes (hexpression closer start outer)
        | _ => rfl

/-- The kinds a word can have. -/
theorem Word.kind_mem {cs : List Char} {kind : Kind} {found : Found} (h : Word cs kind found) :
    kind ∈ [Kind.blockParams, .string, .hashKey, .number, .boolean, .null, .undefined, .path] := by
  cases h with
  | keyword hmem h => rcases (mem_keywords hmem).2 with rfl | rfl | rfl <;> decide
  | _ => decide

theorem Word.keeps {cs : List Char} {kind : Kind} {found : Found} (h : Word cs kind found) :
    kind.Keeps := by
  cases h with
  | keyword hmem h => rcases (mem_keywords hmem).2 with rfl | rfl | rfl <;> exact fun _ => rfl
  | _ => exact fun _ => rfl

/-- The closing braces end in two braces. -/
theorem closer?_braces {closer : Closer} {cs : List Char} {found : Found}
    (h : closer? closer cs = some found) : ['\x7d', '\x7d'] <:+ found.value := by
  unfold closer? at h
  split at h <;> cases h
  · exact ⟨['~'], rfl⟩
  · exact ⟨[], rfl⟩
  · exact ⟨['~', '\x7d'], rfl⟩
  · exact ⟨['\x7d'], rfl⟩
  · exact ⟨['\x7d', '~'], rfl⟩

/-- All that a step can do to the stack and to the awaited value. -/
theorem State.transition_of_step {state : State} {kind : Kind} {value : List Char} {width : Nat}
    {modes : List OpenMode} (hstep : state.step = .emit kind value width modes) :
    Transition state kind value modes := by
  cases State.takes_of_step hstep with
  | braces hallows hcurly hbraces =>
      cases hbraces with
      | opener hbraces hopener =>
          exact .enter _ (hopener.openedBy _) hallows.entersIn (startsWith_iff.1 hcurly)
      | comment => exact .keep (fun _ => rfl) nofun
  | startTag htext hfound =>
      obtain ⟨slice, rest, hrest, -, rfl⟩ := startTag?_covers hfound
      refine .enter (.tag _) ⟨rfl, String.toList_ofList.symm⟩ ?_ ⟨_, hrest.symm⟩
      rw [htext.modes]
      rfl
  | quoteOpen hmodes _ hquote hrest =>
      refine .enter (.quoted _) ⟨rfl, rfl, hquote⟩ ?_ ⟨_, hrest.symm⟩
      rw [hmodes]
      rfl
  | quoteClose hmodes => exact .leave _ _ hmodes ⟨rfl, rfl⟩ nofun
  | selfClose hmodes => exact .leave _ _ hmodes (.inl ⟨rfl, rfl⟩) fun _ _ h => absurd rfl h
  | tagEnd hmodes =>
      -- the name of the tag decides between the two ends
      refine .leave _ _ hmodes (.inr ⟨?_, rfl⟩) ?_
      · split
        · exact .inr rfl
        · exact .inl rfl
      · rintro other ⟨⟩ -
        split
        · rename_i hvoid
          exact iff_of_true rfl (List.contains_iff_mem.1 hvoid)
        · rename_i hvoid
          exact iff_of_false nofun fun hmem => hvoid (List.contains_iff_mem.2 hmem)
  | equals hmodes hawaits =>
      refine .keep (fun _ => rfl) fun _ => ⟨?_, hawaits⟩
      rw [hmodes]
      rfl
  | @closer closer _ _ _ hmodes hfound =>
      refine .leave _ _ hmodes ?_ nofun
      cases closer with
      | double => exact ⟨rfl, closer?_braces hfound⟩
      | triple => exact ⟨rfl, closer?_braces hfound⟩
  | word _ hfound =>
      have hword := word_of_wordStep? hfound
      refine .keep hword.keeps ?_
      rintro rfl
      exact absurd hword.kind_mem (by decide)
  | _ => exact .keep (fun _ => rfl) nofun

theorem State.moves_of_step {state : State} {kind : Kind} {value : List Char} {width : Nat}
    {modes : List OpenMode} (hstep : state.step = .emit kind value width modes) :
    Scan.Moves state.modes kind value modes :=
  (State.transition_of_step hstep).moves

end Scan

end TemplateUsage
