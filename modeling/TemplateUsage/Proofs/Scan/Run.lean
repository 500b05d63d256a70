import TemplateUsage.Proofs.Scan.Determined
import TemplateUsage.Proofs.Scan.Layout

set_option autoImplicit false

/-!
# Runs of the scanner

A run leads from one state to another and emits pieces on the way: tokens of which
only the offsets are known, so that a run does not depend on the lines of the text.
Runs compose and split, and a text is scanned without a fault exactly when a run leads
to its end with no construct open (`scanFrom_of_run`, `exists_run_of_rejection`). A
construct that is left in a run is left at its closing character, which stands in what
the run has read (`Run.closing_mem`).
-/

namespace TemplateUsage

/-- The construct opened at another offset. -/
def OpenMode.move (place : Nat → Nat) (opened : OpenMode) : OpenMode :=
  ⟨opened.mode, place opened.start⟩

/-- The construct opened `distance` characters further on. -/
def OpenMode.shift (distance : Nat) : OpenMode → OpenMode := OpenMode.move (distance + ·)

namespace Scan

/-- A token by the offsets it covers. -/
structure Piece where
  kind : Kind
  value : List Char
  start : Nat
  stop : Nat

/-- The token of a piece, its place measured in lines. -/
def Piece.token (lines : Lines) (piece : Piece) : Token :=
  ⟨piece.kind, ⟨String.ofList piece.value, lines.span piece.start piece.stop⟩⟩

/-- The piece that stands `distance` characters further on. -/
def Piece.shift (distance : Nat) (piece : Piece) : Piece :=
  ⟨piece.kind, piece.value, distance + piece.start, distance + piece.stop⟩

/-- The scanner gets from one state to another and emits pieces on the way. -/
inductive Run : State → List Piece → State → Prop where
  | refl (state : State) : Run state [] state
  | emit {state final : State} {kind : Kind} {value : List Char} {width : Nat}
      {modes : List OpenMode} {pieces : List Piece} :
      state.rest ≠ [] → state.step = .emit kind value width modes →
      Run (state.advance width modes (kind == .equals)) pieces final →
      Run state (⟨kind, value, state.offset, state.offset + width⟩ :: pieces) final
  | skip {state final : State} {width : Nat} {pieces : List Piece} :
      state.rest ≠ [] → state.step = .skip width →
      Run (state.advance width state.modes state.awaitsValue) pieces final →
      Run state pieces final

section

variable {state middle final : State} {pieces : List Piece}

theorem Run.trans {others : List Piece} (hfirst : Run state pieces middle)
    (hsecond : Run middle others final) : Run state (pieces ++ others) final := by
  induction hfirst with
  | refl => exact hsecond
  | emit hne hstep _ ih => exact .emit hne hstep (ih hsecond)
  | skip hne hstep _ ih => exact .skip hne hstep (ih hsecond)

/-- A run can be stopped after any of its pieces. -/
theorem Run.exists_middle {front back : List Piece} (h : Run state (front ++ back) final) :
    ∃ middle, Run state front middle ∧ Run middle back final := by
  generalize hpieces : front ++ back = pieces at h
  induction h generalizing front with
  | refl state =>
      obtain ⟨rfl, rfl⟩ := List.append_eq_nil_iff.1 hpieces
      exact ⟨state, .refl _, .refl _⟩
  | @emit state final kind value width modes pieces hne hstep hrun ih =>
      cases front with
      | nil =>
          obtain rfl : back = _ := hpieces
          exact ⟨state, .refl _, .emit hne hstep hrun⟩
      | cons piece front =>
          rw [List.cons_append, List.cons.injEq] at hpieces
          obtain ⟨rfl, hpieces⟩ := hpieces
          obtain ⟨middle, hfront, hback⟩ := ih hpieces
          exact ⟨middle, .emit hne hstep hfront, hback⟩
  | @skip state final width pieces hne hstep hrun ih =>
      cases front with
      | nil =>
          obtain rfl : back = _ := hpieces
          exact ⟨state, .refl _, .skip hne hstep hrun⟩
      | cons piece front =>
          obtain ⟨middle, hfront, hback⟩ := ih hpieces
          exact ⟨middle, .skip hne hstep hfront, hback⟩

/-- A run takes a step for each of its pieces, from where the piece starts. -/
theorem Run.exists_step {front back : List Piece} {piece : Piece}
    (h : Run state (front ++ piece :: back) final) :
    ∃ middle width modes, Run state front middle ∧ middle.rest ≠ [] ∧
      middle.step = .emit piece.kind piece.value width modes ∧ middle.offset = piece.start ∧
      middle.offset + width = piece.stop ∧
      Run (middle.advance width modes (piece.kind == .equals)) back final := by
  obtain ⟨middle, hfront, hback⟩ := h.exists_middle
  generalize hpieces : piece :: back = pieces at hback
  -- blanks before the piece belong to the run in front of it
  induction hback with
  | refl => cases hpieces
  | emit hne hstep hrun =>
      cases hpieces
      exact ⟨_, _, _, hfront, hne, hstep, rfl, rfl, hrun⟩
  | skip hne hstep hrun ih =>
      have hskipped := hfront.trans (.skip hne hstep (.refl _))
      rw [List.append_nil] at hskipped
      exact ih h hskipped hpieces

/-- A run can be stopped right after a piece. -/
theorem Run.exists_after {front back : List Piece} {piece : Piece}
    (h : Run state (front ++ piece :: back) final) :
    ∃ middle, Run state (front ++ [piece]) middle ∧ middle.offset = piece.stop ∧
      Run middle back final := by
  obtain ⟨middle, width, modes, hfront, hne, hstep, hstart, hstop, hback⟩ := h.exists_step
  have hpiece := Run.emit hne hstep (.refl _)
  rw [hstop, hstart] at hpiece
  exact ⟨_, hfront.trans hpiece, hstop, hback⟩

/-! ## Scans -/

/-- What is scanned after a run is what is scanned from where it leads. -/
theorem scanFrom_of_run (lines : Lines) (h : Run state pieces final) :
    scanFrom lines state =
      ⟨pieces.map (Piece.token lines) ++ (scanFrom lines final).tokens,
        (scanFrom lines final).rejection⟩ := by
  induction h with
  | refl => rfl
  | emit hne hstep _ ih =>
      rw [scanFrom_emit hne hstep, ih]
      rfl
  | skip hne hstep _ ih => rw [scanFrom_skip hne hstep, ih]

/-- A scan without a fault is a run to the end of the text that leaves every
construct. -/
theorem exists_run_of_rejection (lines : Lines) (state : State)
    (h : (scanFrom lines state).rejection = none) :
    ∃ pieces final, Run state pieces final ∧ final.rest = [] ∧ final.modes = [] ∧
      (scanFrom lines state).tokens = pieces.map (Piece.token lines) := by
  fun_induction traceFrom lines state with
  | case1 state hnil =>
      rw [scanFrom_nil hnil] at h ⊢
      refine ⟨[], state, .refl _, hnil, ?_, rfl⟩
      exact List.head?_eq_none_iff.1 (Option.map_eq_none_iff.1 h)
  | case2 state hne kind value width modes hstep ih =>
      rw [scanFrom_emit hne hstep] at h ⊢
      obtain ⟨pieces, final, hrun, hrest, hmodes, htokens⟩ := ih h
      refine ⟨_, final, .emit hne hstep hrun, hrest, hmodes, ?_⟩
      rw [htokens]
      rfl
  | case3 state hne width hstep ih =>
      rw [scanFrom_skip hne hstep] at h ⊢
      obtain ⟨pieces, final, hrun, hfinal⟩ := ih h
      exact ⟨pieces, final, .skip hne hstep hrun, hfinal⟩
  | case4 state hne fault width hstep =>
      rw [scanFrom_fail hne hstep] at h
      cases h

/-! ## What a run reads -/

/-- A step that does not fail covers no more than there is. -/
theorem State.width_le_of_emit {kind : Kind} {value : List Char} {width : Nat}
    {modes : List OpenMode} (hne : state.rest ≠ [])
    (hstep : state.step = .emit kind value width modes) : width ≤ state.rest.length := by
  have hcovers := state.step_covers hne
  rw [hstep] at hcovers
  obtain ⟨slice, rest, hrest, rfl, -⟩ := hcovers
  rw [hrest, List.length_append]
  omega

theorem State.width_le_of_skip {width : Nat} (hne : state.rest ≠ [])
    (hstep : state.step = .skip width) : width ≤ state.rest.length := by
  have hcovers := state.step_covers hne
  rw [hstep] at hcovers
  obtain ⟨blanks, rest, hrest, rfl, -⟩ := hcovers
  rw [hrest, List.length_append]
  omega

/-- What is read from a state on starts with what a step covers. -/
theorem State.exists_read_of_advance {width : Nat} {modes : List OpenMode} {awaitsValue : Bool}
    {read rest : List Char} (hwidth : width ≤ state.rest.length)
    (hread : (state.advance width modes awaitsValue).rest = read ++ rest) :
    ∃ whole, state.rest = whole ++ rest ∧ whole.length = width + read.length := by
  refine ⟨state.rest.take width ++ read, ?_, ?_⟩
  · rw [List.append_assoc, ← hread]
    exact (List.take_append_drop width state.rest).symm
  · rw [List.length_append, List.length_take_of_le hwidth]

/-- A run reads the text between its two states. -/
theorem Run.exists_read (h : Run state pieces final) :
    ∃ read, state.rest = read ++ final.rest ∧ final.offset = state.offset + read.length := by
  induction h with
  | refl => exact ⟨[], rfl, rfl⟩
  | emit hne hstep _ ih =>
      obtain ⟨read, hread, hoffset⟩ := ih
      obtain ⟨whole, hwhole, hlength⟩ :=
        State.exists_read_of_advance (State.width_le_of_emit hne hstep) hread
      exact ⟨whole, hwhole, by rw [hoffset, hlength, ← Nat.add_assoc]; rfl⟩
  | skip hne hstep _ ih =>
      obtain ⟨read, hread, hoffset⟩ := ih
      obtain ⟨whole, hwhole, hlength⟩ :=
        State.exists_read_of_advance (State.width_le_of_skip hne hstep) hread
      exact ⟨whole, hwhole, by rw [hoffset, hlength, ← Nat.add_assoc]; rfl⟩

/-- A step inside what a run reads, with what is left to read after it. -/
theorem Run.width_le {width : Nat} {modes : List OpenMode} {awaitsValue : Bool}
    {read after : List Char} (h : Run (state.advance width modes awaitsValue) pieces final)
    (hwidth : width ≤ state.rest.length) (hread : state.rest = read ++ after)
    (hafter : final.rest = after) :
    width ≤ read.length ∧
      (state.advance width modes awaitsValue).rest = read.drop width ++ after := by
  -- what is left after the step ends in `after`, so the step stays within `read`
  obtain ⟨left, hleft, -⟩ := h.exists_read
  have hlength := congrArg List.length hleft
  rw [hafter] at hlength
  rw [hread] at hwidth
  simp only [State.advance, hread, List.length_drop, List.length_append] at hlength hwidth
  have hle : width ≤ read.length := by omega
  refine ⟨hle, ?_⟩
  rw [State.advance, hread, List.drop_append_of_le_length hle]

/-- The kinds of the pieces say which constructs are open after a run. -/
theorem Run.constructs_eq (lines : Lines) (h : Run state pieces final) :
    constructs final.modes =
      openAfter (constructs state.modes) (pieces.map (Piece.token lines)) := by
  induction h with
  | refl => rfl
  | emit hne hstep _ ih =>
      rw [ih, List.map_cons, openAfter_cons]
      exact congrArg (openAfter · _) (State.moves_of_step hstep).constructs_eq
  | skip hne hstep _ ih => exact ih

/-- A run that leaves a construct reads its closing character. -/
theorem Run.closing_mem (h : Run state pieces final) {inner outer : List OpenMode}
    {opened : OpenMode} {read : List Char} (hmodes : state.modes = inner ++ opened :: outer)
    (hfinal : final.modes.length ≤ outer.length) (hread : state.rest = read ++ final.rest) :
    opened.mode.closing ∈ read := by
  induction h generalizing inner read with
  | refl state =>
      -- the construct is still open, so more are open than the end allows
      rw [hmodes, List.length_append, List.length_cons] at hfinal
      omega
  | @emit state final kind value width modes pieces hne hstep hrun ih =>
      obtain ⟨hle, hnext⟩ := hrun.width_le (State.width_le_of_emit hne hstep) hread rfl
      have hlater : ∀ more, modes = more ++ opened :: outer → opened.mode.closing ∈ read :=
        fun more hmore => List.mem_of_mem_drop (ih hmore hfinal hnext)
      have hmoves := State.moves_of_step hstep
      rw [hmodes] at hmoves
      generalize hwhole : inner ++ opened :: outer = whole at hmoves
      cases hmoves with
      | keep => exact hlater inner hwhole.symm
      | enter new =>
          refine hlater (new :: inner) ?_
          rw [List.cons_append, hwhole]
      | leave left rest hleft hclosed =>
          cases inner with
          | cons first inner =>
              rw [← hwhole, List.cons_append, List.cons.injEq] at hleft
              exact hlater inner hleft.2.symm
          | nil =>
              -- the construct is left here, at the front of what is read
              rw [← hwhole, List.nil_append, List.cons.injEq] at hleft
              obtain ⟨rfl, rfl⟩ := hleft
              have hcovers := state.step_covers hne
              rw [hstep] at hcovers
              obtain ⟨slice, tail, hslice, rfl, hwritten⟩ := hcovers
              have hfront : slice <+: read := by
                rw [hread] at hslice
                exact List.prefix_of_prefix_length_le ⟨tail, hslice.symm⟩
                  (List.prefix_append _ _) hle
              rw [hclosed.written hwritten] at hfront
              exact hfront.subset hclosed.closing_mem
  | @skip state final width pieces hne hstep hrun ih =>
      obtain ⟨-, hnext⟩ := hrun.width_le (State.width_le_of_skip hne hstep) hread rfl
      exact List.mem_of_mem_drop (ih hmodes hfinal hnext)

end

/-! ## Moving a run

A step depends on the text that is left and on the constructs that are open, and not on
how much was read before. -/

/-- The state at another offset. -/
def State.move (place : Nat → Nat) (state : State) : State :=
  ⟨place state.offset, state.rest, state.modes.map (OpenMode.move place), state.awaitsValue⟩

/-- The step as it is taken at another offset. -/
def Step.move (place : Nat → Nat) : Step → Step
  | .emit kind value width modes => .emit kind value width (modes.map (OpenMode.move place))
  | .skip width => .skip width
  | .fail fault width => .fail fault width

section

variable {place : Nat → Nat}

theorem AtBraces.move {offset : Nat} {cs : List Char} {modes : List OpenMode} {step : Step}
    (h : AtBraces offset cs modes step) :
    AtBraces (place offset) cs (modes.map (OpenMode.move place)) (step.move place) := by
  cases h with
  | opener hbraces hopener => exact .opener hbraces hopener
  | comment hbraces hcomment hbreak => exact .comment hbraces hcomment hbreak
  | unterminated hbraces hcomment hbreak => exact .unterminated hbraces hcomment hbreak
  | partialCall hbraces => exact .partialCall hbraces
  | caretSection hbraces => exact .caretSection hbraces

theorem State.modes_move {state : State} {opened : OpenMode} {outer : List OpenMode}
    (h : state.modes = opened :: outer) :
    (state.move place).modes = opened.move place :: outer.map (OpenMode.move place) := by
  rw [State.move, h, List.map_cons]

theorem State.modes_move_nil {state : State} (h : state.modes = []) :
    (state.move place).modes = [] := by
  rw [State.move, h, List.map_nil]

theorem State.AtText.move {state : State} (h : state.AtText) : (state.move place).AtText :=
  ⟨State.modes_move_nil h.modes, h.escape, h.braces, h.comment, h.closing⟩

theorem State.AtValue.move {state : State} (h : state.AtValue) : (state.move place).AtValue := by
  obtain ⟨name, start, outer, hmodes⟩ := h.modes
  exact ⟨⟨name, _, _, State.modes_move hmodes⟩, h.awaitsValue, h.head, h.braces⟩

theorem State.AtPart.move {state : State} {name : String} (h : state.AtPart name) :
    (state.move place).AtPart name := by
  obtain ⟨start, outer, hmodes⟩ := h.modes
  exact ⟨⟨_, _, State.modes_move hmodes⟩, h.awaitsValue, h.head, h.closing, h.braces⟩

theorem State.AtWord.move {state : State} {c : Char} (h : state.AtWord c) :
    (state.move place).AtWord c := by
  obtain ⟨closer, start, outer, hmodes, hcloser⟩ := h.modes
  exact ⟨⟨closer, _, _, State.modes_move hmodes, hcloser⟩, h.head, h.solid, h.paren⟩

theorem State.AllowsBraces.move {state : State} (h : state.AllowsBraces) :
    (state.move place).AllowsBraces := by
  obtain ⟨offset, rest, modes, awaitsValue⟩ := state
  rcases modes with _ | ⟨⟨name | quote | closer, start⟩, outer⟩ <;> exact h

/-- The step that is taken at another offset. -/
theorem State.Takes.move {state : State} {step : Step} (h : state.Takes step) :
    (state.move place).Takes (step.move place) := by
  cases h with
  | braces hallows hcurly hbraces => exact .braces hallows.move hcurly hbraces.move
  | escape hmodes hrest => exact .escape (State.modes_move_nil hmodes) hrest
  | htmlComment hmodes hrest hbreak =>
      exact .htmlComment (State.modes_move_nil hmodes) hrest hbreak
  | openHtmlComment hmodes hrest hbreak =>
      exact .openHtmlComment (State.modes_move_nil hmodes) hrest hbreak
  | endTag hmodes hrest hfound => exact .endTag (State.modes_move_nil hmodes) hrest hfound
  | malformedEndTag hmodes hrest hfound =>
      exact .malformedEndTag (State.modes_move_nil hmodes) hrest hfound
  | startTag htext hfound => exact .startTag htext.move hfound
  | text htext htag => exact .text htext.move htag
  | quoteClose hmodes hrest => exact .quoteClose (State.modes_move hmodes) hrest
  | quotedText hmodes hquote hcurly =>
      exact .quotedText (State.modes_move hmodes) hquote hcurly
  | tagBlanks hmodes hpos => exact .tagBlanks (State.modes_move hmodes) hpos
  | quoteOpen hmodes hawaits hquote hrest =>
      exact .quoteOpen (State.modes_move hmodes) hawaits hquote hrest
  | value hvalue hfound => exact .value hvalue.move hfound
  | missingValue hvalue hfound => exact .missingValue hvalue.move hfound
  | selfClose hmodes hawaits hrest => exact .selfClose (State.modes_move hmodes) hawaits hrest
  | tagEnd hmodes hawaits hrest => exact .tagEnd (State.modes_move hmodes) hawaits hrest
  | equals hmodes hawaits hrest => exact .equals (State.modes_move hmodes) hawaits hrest
  | tagParams hpart hfound => exact .tagParams hpart.move hfound
  | attributeName hpart hparams hfound => exact .attributeName hpart.move hparams hfound
  | strayInTag hpart hhead hparams hname => exact .strayInTag hpart.move hhead hparams hname
  | tagOver hmodes hawaits hrest => exact .tagOver (State.modes_move hmodes) hawaits hrest
  | blanks hmodes hpos => exact .blanks (State.modes_move hmodes) hpos
  | closer hmodes hfound => exact .closer (State.modes_move hmodes) hfound
  | openParen hmodes hrest => exact .openParen (State.modes_move hmodes) hrest
  | closeParen hmodes hrest => exact .closeParen (State.modes_move hmodes) hrest
  | word hword hfound => exact .word hword.move hfound
  | strayInMustache hword hfound => exact .strayInMustache hword.move hfound
  | mustacheOver hmodes hrest => exact .mustacheOver (State.modes_move hmodes) hrest

theorem State.step_move (place : Nat → Nat) (state : State) :
    (state.move place).step = state.step.move place :=
  state.takes_step.move.step_eq

end

/-- A step that emits at another offset emits the same here. -/
theorem Step.eq_emit_of_move {place : Nat → Nat} {step : Step} {kind : Kind} {value : List Char}
    {width : Nat} {modes : List OpenMode} (h : step.move place = .emit kind value width modes) :
    ∃ before, step = .emit kind value width before ∧ modes = before.map (OpenMode.move place) := by
  cases step with
  | emit found foundValue foundWidth before =>
      cases h
      exact ⟨before, rfl, rfl⟩
  | skip found => cases h
  | fail fault found => cases h

theorem Step.eq_skip_of_move {place : Nat → Nat} {step : Step} {width : Nat}
    (h : step.move place = .skip width) : step = .skip width := by
  cases step with
  | emit found foundValue foundWidth before => cases h
  | skip found =>
      cases h
      rfl
  | fail fault found => cases h

/-- The state `distance` characters further on. -/
def State.shift (distance : Nat) : State → State := State.move (distance + ·)

/-- The step as it is taken `distance` characters further on. -/
def Step.shift (distance : Nat) : Step → Step := Step.move (distance + ·)

theorem State.step_shift (distance : Nat) (state : State) :
    (state.shift distance).step = state.step.shift distance :=
  state.step_move (distance + ·)

theorem State.shift_advance (distance : Nat) (state : State) (width : Nat)
    (modes : List OpenMode) (awaitsValue : Bool) :
    (state.advance width modes awaitsValue).shift distance =
      (state.shift distance).advance width (modes.map (OpenMode.shift distance)) awaitsValue := by
  simp only [State.advance, State.shift, State.move, OpenMode.shift, Nat.add_assoc]

/-- A run can be moved along. -/
theorem Run.shift (distance : Nat) {state final : State} {pieces : List Piece}
    (h : Run state pieces final) :
    Run (state.shift distance) (pieces.map (Piece.shift distance)) (final.shift distance) := by
  induction h with
  | refl => exact .refl _
  | @emit state final kind value width modes pieces hne hstep _ ih =>
      have hmoved := State.step_shift distance state
      rw [hstep] at hmoved
      rw [State.shift_advance] at ih
      rw [List.map_cons, Piece.shift, ← Nat.add_assoc]
      exact .emit hne hmoved ih
  | @skip state final width pieces hne hstep _ ih =>
      have hmoved := State.step_shift distance state
      rw [hstep] at hmoved
      rw [State.shift_advance] at ih
      exact .skip hne hmoved ih

/-- In content it does not matter what the last token was. -/
theorem Run.of_content {offset : Nat} {rest : List Char} {awaitsValue : Bool} {final : State}
    {pieces : List Piece} (h : Run ⟨offset, rest, [], awaitsValue⟩ pieces final)
    (waiting : Bool) :
    ∃ other, Run ⟨offset, rest, [], waiting⟩ pieces other ∧ other.rest = final.rest ∧
      other.modes = final.modes := by
  cases h with
  | refl => exact ⟨_, .refl _, rfl, rfl⟩
  | emit hne hstep hrun => exact ⟨final, .emit hne hstep hrun, rfl, rfl⟩
  | skip hne hstep => exact absurd hstep (State.step_ne_skip rfl _)

/-! ## Runs over the same text

Where a run starts, and where the constructs around it were opened, shows in the places of
its pieces only. -/

/-- What a piece says, wherever it stands. -/
def Piece.reading (piece : Piece) : Kind × List Char := (piece.kind, piece.value)

/-- The states have the same text before them and are inside of the same constructs. -/
structure State.Alike (first second : State) : Prop where
  rest : first.rest = second.rest
  modes : first.modes.map OpenMode.mode = second.modes.map OpenMode.mode
  awaitsValue : first.awaitsValue = second.awaitsValue

/-- Constructs that were opened at no matter which offsets. -/
theorem map_move_eq {first second : List OpenMode}
    (h : first.map OpenMode.mode = second.map OpenMode.mode) :
    first.map (OpenMode.move fun _ => 0) = second.map (OpenMode.move fun _ => 0) := by
  have hmoved := congrArg (List.map fun mode => OpenMode.mk mode 0) h
  rw [List.map_map, List.map_map] at hmoved
  exact hmoved

theorem map_mode_eq {first second : List OpenMode}
    (h : first.map (OpenMode.move fun _ => 0) = second.map (OpenMode.move fun _ => 0)) :
    first.map OpenMode.mode = second.map OpenMode.mode := by
  have hmodes := congrArg (List.map OpenMode.mode) h
  rw [List.map_map, List.map_map] at hmodes
  exact hmodes

section

variable {state other : State}

theorem State.Alike.step_move (h : state.Alike other) :
    state.step.move (fun _ => 0) = other.step.move fun _ => 0 := by
  rw [← State.step_move, ← State.step_move, State.move, State.move, h.rest, map_move_eq h.modes,
    h.awaitsValue]

theorem State.Alike.emit (h : state.Alike other) {kind : Kind} {value : List Char} {width : Nat}
    {modes : List OpenMode} (hstep : state.step = .emit kind value width modes) :
    ∃ others, other.step = .emit kind value width others ∧
      modes.map OpenMode.mode = others.map OpenMode.mode := by
  have hmoved := h.step_move
  rw [hstep] at hmoved
  obtain ⟨others, hothers, hmodes⟩ := Step.eq_emit_of_move hmoved.symm
  exact ⟨others, hothers, map_mode_eq hmodes⟩

theorem State.Alike.skip (h : state.Alike other) {width : Nat} (hstep : state.step = .skip width) :
    other.step = .skip width := by
  have hmoved := h.step_move
  rw [hstep] at hmoved
  exact Step.eq_skip_of_move hmoved.symm

/-- From alike states there are runs that read the same. -/
theorem Run.alike {final : State} {pieces : List Piece} (h : Run state pieces final)
    (halike : state.Alike other) :
    ∃ others last, Run other others last ∧
      others.map Piece.reading = pieces.map Piece.reading ∧ final.Alike last := by
  induction h generalizing other with
  | refl state => exact ⟨[], other, .refl _, rfl, halike⟩
  | @emit state final kind value width modes pieces hne hstep _ ih =>
      obtain ⟨otherModes, hother, hmodes⟩ := halike.emit hstep
      have hnext : (state.advance width modes (kind == .equals)).Alike
          (other.advance width otherModes (kind == .equals)) :=
        ⟨congrArg (List.drop width) halike.rest, hmodes, rfl⟩
      obtain ⟨others, last, hrun, hreading, hlast⟩ := ih hnext
      refine ⟨_, last, .emit (halike.rest ▸ hne) hother hrun, ?_, hlast⟩
      rw [List.map_cons, List.map_cons, hreading]
      rfl
  | @skip state final width pieces hne hstep _ ih =>
      have hnext : (state.advance width state.modes state.awaitsValue).Alike
          (other.advance width other.modes other.awaitsValue) :=
        ⟨congrArg (List.drop width) halike.rest, halike.modes, halike.awaitsValue⟩
      obtain ⟨others, last, hrun, hreading, hlast⟩ := ih hnext
      exact ⟨others, last, .skip (halike.rest ▸ hne) (halike.skip hstep) hrun, hreading, hlast⟩

end

end Scan

end TemplateUsage
