import TemplateUsage.Location.Lines
import TemplateUsage.Rejection
import TemplateUsage.Scan.Progress

set_option autoImplicit false

/-!
# Scanning a template

The scanner takes steps until the text ends or a step fails. The tokens found
before a failure are kept, because a reader may reject one of them first.
-/

namespace TemplateUsage

/-- The tokens of a text, up to its end or to the first fault of the scanner. -/
structure Scan where
  tokens : List Token
  rejection : Option Rejection
  deriving DecidableEq, Repr, Inhabited

namespace Scan

/-- The state after `width` more characters. -/
def State.advance (state : State) (width : Nat) (modes : List OpenMode) (awaitsValue : Bool) :
    State :=
  ⟨state.offset + width, state.rest.drop width, modes, awaitsValue⟩

theorem State.advance_length_lt {state : State} {width : Nat} {modes : List OpenMode}
    {awaitsValue : Bool} (hne : state.rest ≠ []) (hwidth : 0 < width) :
    (state.advance width modes awaitsValue).rest.length < state.rest.length := by
  have := List.length_pos_iff.2 hne
  simp only [advance, List.length_drop]
  omega

/-- The fault at the end of the text: the innermost open construct is not closed. -/
def State.finish (lines : Lines) (state : State) : Option Rejection :=
  state.modes.head?.map fun opened =>
    ⟨.unterminated opened.mode, lines.span opened.start (opened.start + 1)⟩

/-- The tokens from a state on. -/
def scanFrom (lines : Lines) (state : State) : Scan :=
  if _hne : state.rest = [] then ⟨[], state.finish lines⟩
  else
    match _hstep : state.step with
    | .emit kind value width modes =>
        let span := lines.span state.offset (state.offset + width)
        let scan := scanFrom lines (state.advance width modes (kind == .equals))
        ⟨⟨kind, ⟨String.ofList value, span⟩⟩ :: scan.tokens, scan.rejection⟩
    | .skip width =>
        scanFrom lines (state.advance width state.modes state.awaitsValue)
    | .fail fault width =>
        ⟨[], some ⟨fault, lines.span state.offset (state.offset + width)⟩⟩
termination_by state.rest.length
decreasing_by
  all_goals
    have hadvances := state.step_advances _hne
    rw [_hstep] at hadvances
    exact State.advance_length_lt _hne hadvances

/-- The tokens of a text. -/
def ofText (text : String) : Scan :=
  scanFrom (Lines.ofText text.toList) (State.initial text.toList)

end Scan

end TemplateUsage
