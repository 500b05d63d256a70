import TemplateUsage.Proofs.Scan.Locality
import TemplateUsage.Proofs.Scan.ModeStack
import TemplateUsage.Proofs.Scan.Visibility

set_option autoImplicit false

/-!
# How a scan ends

Every iteration of the scanner reads at least one character and stays within the text, so
the scan of a text needs no more iterations than the text has characters
(`scanWithin_eq_scanFrom`). In content there is always something to read: text is found
exactly where nothing else begins (`textRun_eq_nil_iff`). A scan fails for one of two
reasons, a malformed text or an unterminated construct. Main statement:
`scan_ends_within_length`.
-/

namespace TemplateUsage

/-- The faults of the scanner have one of two codes. -/
theorem Fault.Lexical.code_text {fault : Fault} (h : fault.Lexical) :
    fault.code.text = "T0001" ∨ fault.code.text = "T0002" := by
  cases fault with
  | unterminatedComment form => exact .inr rfl
  | unterminated mode => exact .inr rfl
  | unexpectedToken kind expected => exact h.elim
  | unexpectedEnd expected => exact h.elim
  | tagMismatch opened closed => exact h.elim
  | blockMismatch opened closed => exact h.elim
  | _ => exact .inl rfl

namespace Scan

/-! ## Text is found where nothing else begins -/

/-- There is no text at the front exactly where something else begins or all ends. -/
theorem textRun_eq_nil_iff {cs : List Char} :
    textRun cs = [] ↔
      cs = [] ∨ startsWith ['\\', '\x7b', '\x7b'] cs = true ∨ atCurly cs = true ∨
        startsWith ['<', '!', '-', '-'] cs = true ∨ startsWith ['<', '/'] cs = true ∨
        (startTag? cs).isSome = true := by
  rw [← halts_iff_begins]
  cases cs with
  | nil => simp [textRun]
  | cons c rest =>
      rw [textRun_cons]
      split
      · simp_all
      · split <;> simp_all

/-! ## Iterations -/

/-- The scan from a state on, if it ends within a budget of iterations. -/
def scanWithin (lines : Lines) : Nat → State → Option Scan
  | 0, state => if state.rest = [] then some ⟨[], state.finish lines⟩ else none
  | budget + 1, state =>
      if state.rest = [] then some ⟨[], state.finish lines⟩
      else
        match state.step with
        | .emit kind value width modes =>
            (scanWithin lines budget (state.advance width modes (kind == .equals))).map fun scan =>
              ⟨state.token lines kind value width :: scan.tokens, scan.rejection⟩
        | .skip width =>
            scanWithin lines budget (state.advance width state.modes state.awaitsValue)
        | .fail fault width =>
            some ⟨[], some ⟨fault, lines.span state.offset (state.offset + width)⟩⟩

/-- As many iterations as there are characters left are enough. -/
theorem scanWithin_eq_scanFrom (lines : Lines) {budget : Nat} {state : State}
    (h : state.rest.length ≤ budget) :
    scanWithin lines budget state = some (scanFrom lines state) := by
  induction budget generalizing state with
  | zero =>
      have hnil : state.rest = [] := List.length_eq_zero_iff.1 (Nat.le_zero.1 h)
      rw [scanWithin, if_pos hnil, scanFrom_nil hnil]
  | succ budget ih =>
      rw [scanWithin]
      by_cases hnil : state.rest = []
      · rw [if_pos hnil, scanFrom_nil hnil]
      · rw [if_neg hnil]
        -- an iteration leaves fewer characters, and so at most the budget that is left
        have hleft : ∀ {width : Nat} {modes : List OpenMode} {awaitsValue : Bool}, 0 < width →
            (state.advance width modes awaitsValue).rest.length ≤ budget :=
          fun hwidth => Nat.le_of_lt_succ ((State.advance_length_lt hnil hwidth).trans_le h)
        have hadvances := state.step_advances hnil
        split
        · rename_i hstep
          rw [hstep] at hadvances
          rw [ih (hleft hadvances), scanFrom_emit hnil hstep]
          rfl
        · rename_i hstep
          rw [hstep] at hadvances
          rw [ih (hleft hadvances), scanFrom_skip hnil hstep]
        · rename_i hstep
          rw [scanFrom_fail hnil hstep]

/-- What an iteration may do in a text of this length: read on within the text, and leave a
construct only if one is open, or fail for a reason of the scanner's own at characters of
the text. -/
def Step.Proceeds (length : Nat) (state : State) : Step → Prop
  | .emit kind _ width _ =>
      0 < width ∧ state.offset + width ≤ length ∧ (kind ∈ Kind.closers → state.modes ≠ [])
  | .skip width => 0 < width ∧ state.offset + width ≤ length
  | .fail fault width =>
      0 < width ∧ state.offset + width ≤ length ∧
        (fault.code.text = "T0001" ∨ fault.code.text = "T0002")

theorem State.step_proceeds {length : Nat} {state : State}
    (hlength : state.offset + state.rest.length = length) (hne : state.rest ≠ []) :
    state.step.Proceeds length state := by
  subst hlength
  have hadvances := state.step_advances hne
  have hpoints := state.step_points hne
  cases hstep : state.step with
  | emit kind value width modes =>
      rw [hstep] at hadvances
      refine ⟨hadvances, Nat.add_le_add_left (State.width_le_of_emit hne hstep) _, fun hkind => ?_⟩
      obtain ⟨opened, hmodes, -⟩ := (State.transition_of_step hstep).leaves hkind
      rw [hmodes]
      exact List.cons_ne_nil _ _
  | skip width =>
      rw [hstep] at hadvances
      exact ⟨hadvances, Nat.add_le_add_left (State.width_le_of_skip hne hstep) _⟩
  | fail fault width =>
      rw [hstep] at hpoints
      obtain ⟨hlexical, hwidth, hle⟩ := hpoints
      exact ⟨hwidth, Nat.add_le_add_left hle _, hlexical.code_text⟩

/-! ## Ends -/

/-- Where a scan leads: to the end of the text or to a step that fails. -/
theorem exists_run_to_end (lines : Lines) (state : State) :
    ∃ pieces final, Run state pieces final ∧
      (scanFrom lines state).tokens = pieces.map (Piece.token lines) ∧
      (final.rest = [] ∨ ∃ fault width, final.rest ≠ [] ∧ final.step = .fail fault width) := by
  fun_induction traceFrom lines state with
  | case1 state hnil =>
      rw [scanFrom_nil hnil]
      exact ⟨[], state, .refl _, rfl, .inl hnil⟩
  | case2 state hne kind value width modes hstep ih =>
      obtain ⟨pieces, final, hrun, htokens, hend⟩ := ih
      refine ⟨_, final, .emit hne hstep hrun, ?_, hend⟩
      rw [scanFrom_emit hne hstep, htokens]
      rfl
  | case3 state hne width hstep ih =>
      obtain ⟨pieces, final, hrun, htokens, hend⟩ := ih
      refine ⟨pieces, final, .skip hne hstep hrun, ?_, hend⟩
      rw [scanFrom_skip hne hstep, htokens]
  | case4 state hne fault width hstep =>
      rw [scanFrom_fail hne hstep]
      exact ⟨[], state, .refl _, rfl, .inr ⟨fault, width, hne, hstep⟩⟩

section FromBeginning

variable {source : String} {pieces : List Piece} {state : State}

/-- What is read and what is left make up the text. -/
theorem Run.offset_add_length (hrun : Run (.initial source.toList) pieces state) :
    state.offset + state.rest.length = source.length := by
  obtain ⟨read, hread, hoffset⟩ := hrun.exists_read
  have hlength : source.toList.length = (read ++ state.rest).length := congrArg List.length hread
  rw [String.length_toList, List.length_append] at hlength
  rw [hlength, hoffset]
  exact congrArg (· + _) (Nat.zero_add _)

/-- The rejection of a text whose end is reached. -/
theorem rejection_of_run (hrun : Run (.initial source.toList) pieces state)
    (hend : state.rest = []) :
    (ofText source).rejection = state.finish (Lines.ofText source.toList) := by
  rw [ofText, scanFrom_of_run _ hrun, scanFrom_nil hend]

end FromBeginning

/-- How the scan of a text ends. As many iterations as the text has characters are enough.
From every state that is reached an iteration reads on within the text, or fails with one of
the two codes of the scanner at characters of the text; it never leaves a construct where
none is open. In content, text is found exactly where nothing else begins. The scan gets to
the end of the text or to a step that fails. At the end, the innermost open construct is
unterminated, where it was opened, and if none is open the text is not rejected. -/
theorem scan_ends_within_length (source : String) :
    (∀ budget, source.length ≤ budget →
      scanWithin (Lines.ofText source.toList) budget (.initial source.toList) =
        some (ofText source)) ∧
    (∀ pieces state, Run (.initial source.toList) pieces state →
      state.offset ≤ source.length ∧
      (state.offset < source.length → state.step.Proceeds source.length state) ∧
      (state.offset = source.length →
        (state.modes = [] ↔ (ofText source).rejection = none) ∧
        ∀ opened ∈ state.modes.head?,
          opened.mode.opener <+: source.toList.drop opened.start ∧ ∃ rejection,
          (ofText source).rejection = some rejection ∧ rejection.fault.code.text = "T0002" ∧
          rejection = ⟨.unterminated opened.mode,
            (Lines.ofText source.toList).span opened.start (opened.start + 1)⟩)) ∧
    (∀ cs, textRun cs = [] ↔
      cs = [] ∨ startsWith ['\\', '\x7b', '\x7b'] cs = true ∨ atCurly cs = true ∨
        startsWith ['<', '!', '-', '-'] cs = true ∨ startsWith ['<', '/'] cs = true ∨
        (startTag? cs).isSome = true) ∧
    (∃ pieces state, Run (.initial source.toList) pieces state ∧
      (ofText source).tokens = pieces.map (Piece.token (Lines.ofText source.toList)) ∧
      (state.offset = source.length ∨
        ∃ fault width, state.step = .fail fault width ∧ (ofText source).rejection =
          some ⟨fault, (Lines.ofText source.toList).span state.offset (state.offset + width)⟩)) ∧
    ∀ rejection, (ofText source).rejection = some rejection →
      rejection.fault.code.text = "T0001" ∨ rejection.fault.code.text = "T0002" := by
  refine ⟨fun budget hbudget => ?_, fun pieces state hrun => ?_, fun cs => textRun_eq_nil_iff, ?_,
    fun rejection hrejection => (visible_of_rejection hrejection).1.code_text⟩
  · refine scanWithin_eq_scanFrom _ ?_
    rw [State.initial, String.length_toList]
    exact hbudget
  · have hlength := hrun.offset_add_length
    refine ⟨by omega, fun hlt => ?_, fun heq => ?_⟩
    · refine State.step_proceeds hlength fun hnil => ?_
      rw [hnil, List.length_nil] at hlength
      omega
    · have hend : state.rest = [] := List.length_eq_zero_iff.1 (by omega)
      have hrejection := rejection_of_run hrun hend
      rw [hrejection, State.finish]
      refine ⟨by simp, fun opened hopened => ?_⟩
      rw [Option.mem_def.1 hopened]
      have htracked : Tracked source.toList pieces state := (tracked_initial _).run hrun
      exact ⟨htracked.opened opened (List.mem_of_mem_head? hopened), _, rfl, rfl, rfl⟩
  · obtain ⟨pieces, state, hrun, htokens, hend⟩ :=
      exists_run_to_end (Lines.ofText source.toList) (.initial source.toList)
    refine ⟨pieces, state, hrun, htokens, ?_⟩
    rcases hend with hend | ⟨fault, width, hne, hstep⟩
    · have hlength := hrun.offset_add_length
      rw [hend] at hlength
      exact .inl hlength
    · refine .inr ⟨fault, width, hstep, ?_⟩
      rw [ofText, scanFrom_of_run _ hrun, scanFrom_fail hne hstep]

/-- A tag with a quoted value in it, both left open after an expression. -/
def openValue : String := "<b c='\x7b\x7bd\x7d\x7d"

/-- The scan gets to the end in eleven characters, and the value is unterminated, not the tag. -/
theorem scan_ends_within_length_openValue :
    scanWithin (Lines.ofText openValue.toList) 11 (.initial openValue.toList) =
        some (ofText openValue) ∧
      ∃ pieces state, Run (.initial openValue.toList) pieces state ∧ state.modes.length = 2 ∧
        (ofText openValue).rejection = some ⟨.unterminated (.quoted '\''),
          (Lines.ofText openValue.toList).span 5 6⟩ := by
  have hrun : ∃ pieces state, Run (.initial openValue.toList) pieces state ∧
      state = ⟨11, [], [⟨.quoted '\'', 5⟩, ⟨.tag "b", 0⟩], false⟩ :=
    ⟨_, _, .emit (by decide) rfl <| .skip (by decide) rfl <| .emit (by decide) rfl <|
      .emit (by decide) rfl <| .emit (by decide) rfl <| .emit (by decide) rfl <|
      .emit (by decide) rfl <| .emit (by decide) rfl <| .refl _, rfl⟩
  obtain ⟨pieces, state, hrun, rfl⟩ := hrun
  obtain ⟨hbudget, hstates, -⟩ := scan_ends_within_length openValue
  obtain ⟨-, -, hend⟩ := hstates pieces _ hrun
  obtain ⟨-, rejection, hrejection, -, rfl⟩ := (hend (by decide)).2 ⟨.quoted '\'', 5⟩ rfl
  exact ⟨hbudget 11 (by decide), pieces, _, hrun, rfl, hrejection⟩

end Scan

end TemplateUsage
