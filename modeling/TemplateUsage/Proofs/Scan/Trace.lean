import TemplateUsage.Scan

set_option autoImplicit false

/-!
# Traces of the scanner

`traceFrom` keeps, for every token of a scan, the state it was found in and the
constructs that are open after it; its tokens are those of the scan
(`map_token_traceFrom`). The equations `scanFrom_emit`, `scanFrom_skip` and
`scanFrom_fail` say how a scan goes on after a step.
-/

namespace TemplateUsage

/-- Offset of the first character of a token. -/
def Token.start (token : Token) : Nat := token.lexeme.span.start.offset

/-- Offset of the character after the last one of a token. -/
def Token.stop (token : Token) : Nat := token.lexeme.span.stop.offset

namespace Scan

/-- A token, the state it was found in and the constructs open after it. -/
structure Emission where
  state : State
  token : Token
  modes : List OpenMode

/-- The token a step emits in a state. -/
def State.token (lines : Lines) (state : State) (kind : Kind) (value : List Char) (width : Nat) :
    Token :=
  ⟨kind, ⟨String.ofList value, lines.span state.offset (state.offset + width)⟩⟩

@[simp] theorem State.start_token (lines : Lines) (state : State) (kind : Kind)
    (value : List Char) (width : Nat) : (state.token lines kind value width).start = state.offset :=
  rfl

@[simp] theorem State.stop_token (lines : Lines) (state : State) (kind : Kind)
    (value : List Char) (width : Nat) :
    (state.token lines kind value width).stop = state.offset + width :=
  rfl

/-- The emissions from a state on. -/
def traceFrom (lines : Lines) (state : State) : List Emission :=
  if _hne : state.rest = [] then []
  else
    match _hstep : state.step with
    | .emit kind value width modes =>
        ⟨state, state.token lines kind value width, modes⟩ ::
          traceFrom lines (state.advance width modes (kind == .equals))
    | .skip width => traceFrom lines (state.advance width state.modes state.awaitsValue)
    | .fail _ _ => []
termination_by state.rest.length
decreasing_by
  all_goals
    have hadvances := state.step_advances _hne
    rw [_hstep] at hadvances
    exact State.advance_length_lt _hne hadvances

/-- The emissions of a text. -/
def trace (text : String) : List Emission :=
  traceFrom (Lines.ofText text.toList) (State.initial text.toList)

/-- The rest of a text is what is left of it at the offset, also further on. -/
theorem State.rest_advance {text : List Char} {state : State}
    (hrest : state.rest = text.drop state.offset) (width : Nat) (modes : List OpenMode)
    (awaitsValue : Bool) :
    (state.advance width modes awaitsValue).rest =
      text.drop (state.advance width modes awaitsValue).offset := by
  rw [State.advance, hrest, List.drop_drop]

section Equations

variable {lines : Lines} {state : State}

theorem scanFrom_nil (hnil : state.rest = []) :
    scanFrom lines state = ⟨[], state.finish lines⟩ := by
  rw [scanFrom, dif_pos hnil]

/-- A scan goes on after a token that it emits. -/
theorem scanFrom_emit {kind : Kind} {value : List Char} {width : Nat} {modes : List OpenMode}
    (hne : state.rest ≠ []) (hstep : state.step = .emit kind value width modes) :
    scanFrom lines state =
      ⟨state.token lines kind value width ::
          (scanFrom lines (state.advance width modes (kind == .equals))).tokens,
        (scanFrom lines (state.advance width modes (kind == .equals))).rejection⟩ := by
  rw [scanFrom, dif_neg hne]
  split
  · rename_i heq
    rw [hstep] at heq
    cases heq
    rfl
  · rename_i heq
    rw [hstep] at heq
    cases heq
  · rename_i heq
    rw [hstep] at heq
    cases heq

/-- What is skipped leaves no trace in the scan. -/
theorem scanFrom_skip {width : Nat} (hne : state.rest ≠ []) (hstep : state.step = .skip width) :
    scanFrom lines state =
      scanFrom lines (state.advance width state.modes state.awaitsValue) := by
  rw [scanFrom, dif_neg hne]
  split
  · rename_i heq
    rw [hstep] at heq
    cases heq
  · rename_i heq
    rw [hstep] at heq
    cases heq
    rfl
  · rename_i heq
    rw [hstep] at heq
    cases heq

theorem scanFrom_fail {fault : Fault} {width : Nat} (hne : state.rest ≠ [])
    (hstep : state.step = .fail fault width) :
    scanFrom lines state =
      ⟨[], some ⟨fault, lines.span state.offset (state.offset + width)⟩⟩ := by
  rw [scanFrom, dif_neg hne]
  split
  · rename_i heq
    rw [hstep] at heq
    cases heq
  · rename_i heq
    rw [hstep] at heq
    cases heq
  · rename_i heq
    rw [hstep] at heq
    cases heq
    rfl

end Equations

/-- The tokens of the trace are those of the scan. -/
theorem map_token_traceFrom (lines : Lines) (state : State) :
    (traceFrom lines state).map Emission.token = (scanFrom lines state).tokens := by
  fun_induction traceFrom lines state with
  | case1 state hne => rw [scanFrom_nil hne]; rfl
  | case2 state hne kind value width modes hstep ih =>
      rw [scanFrom_emit hne hstep, List.map_cons, ih]
  | case3 state hne width hstep ih => rw [scanFrom_skip hne hstep, ih]
  | case4 state hne fault width hstep => rw [scanFrom_fail hne hstep]; rfl

end Scan

end TemplateUsage
