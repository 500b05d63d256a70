import TemplateUsage.Proofs.Scan.Layout

set_option autoImplicit false

/-!
# What the scanner points at can be seen

A token that starts with a newline is text between tags or stands in a quoted value
(`fills_of_newline`), because blanks are passed over everywhere else. The scanner
rejects a text at some of its characters, the first of which is not a newline
(`visible_of_rejection`): it stops at a character that is none, or at the one that
opened a construct.
-/

namespace TemplateUsage

/-- Tokens of this kind may hold any character, with these constructs open: text
between tags, and what stands in a quoted value or ends it. -/
def Kind.Fills (kind : Kind) (opened : List Construct) : Prop :=
  (kind = .text ∧ opened = []) ∨
    ((kind = .attributeText ∨ kind = .quoteClose) ∧ opened.head? = some .quoted)

/-- The fault is one of the scanner: it says nothing of where a token may stand. -/
def Fault.Lexical : Fault → Prop
  | .unexpectedToken _ _ | .unexpectedEnd _ | .tagMismatch _ _ | .blockMismatch _ _ => False
  | _ => True

theorem Fault.Lexical.code_ne {fault : Fault} (h : fault.Lexical) :
    fault.code ≠ .unexpectedEnd := by
  cases fault with
  | unexpectedEnd expected => exact h.elim
  | _ => exact nofun

/-- A character other than a newline stands at the offset. -/
def VisibleAt (text : List Char) (offset : Nat) : Prop :=
  ∃ c, text[offset]? = some c ∧ c ≠ '\n'

/-- What can be seen lies within the text. -/
theorem VisibleAt.lt_length {text : List Char} {offset : Nat} (h : VisibleAt text offset) :
    offset < text.length := by
  obtain ⟨c, hc, -⟩ := h
  exact (List.getElem?_eq_some_iff.1 hc).1

/-- The span holds characters of the text, the first of them not a newline, and its
points are counted right. -/
structure Span.Visible (text : List Char) (span : Span) : Prop where
  start_lt : span.start.offset < span.stop.offset
  stop_le : span.stop.offset ≤ text.length
  visibleAt : VisibleAt text span.start.offset
  eq_counted :
    span = ⟨Point.counted text span.start.offset, Point.counted text span.stop.offset⟩

/-- A span within the text that does not start at a line break can be seen. -/
theorem visible_span {text : List Char} {start width : Nat} (hwidth : 0 < width)
    (hle : start + width ≤ text.length) (hvisible : VisibleAt text start) :
    ((Lines.ofText text).span start (start + width)).Visible text := by
  refine ⟨Nat.lt_add_of_pos_right hwidth, hle, hvisible, ?_⟩
  exact Lines.span_ofText (Nat.le_of_add_right_le hle) hle

namespace Scan

/-! ## Steps at a newline -/

/-- At a newline a step does not fail, enters no construct, and emits nothing but what
may hold any character. -/
def Step.Fills (modes : List OpenMode) : Step → Prop
  | .emit kind _ _ next => kind.Fills (constructs modes) ∧ next ⊆ modes
  | .skip _ => True
  | .fail _ _ => False

/-- Between statements a line break is text. -/
theorem contentStep_newline (offset : Nat) (rest : List Char) :
    contentStep offset ('\n' :: rest) [] = .found .text (.whole (textRun ('\n' :: rest))) [] :=
  rfl

theorem quotedStep_fills (offset : Nat) (rest : List Char) (quote : Char) (start : Nat)
    (outer : List OpenMode) :
    (quotedStep offset ('\n' :: rest) quote (⟨.quoted quote, start⟩ :: outer) outer).Fills
      (⟨.quoted quote, start⟩ :: outer) := by
  unfold quotedStep
  split
  · exact ⟨.inr ⟨.inr rfl, rfl⟩, List.subset_cons_self _ _⟩
  · exact ⟨.inr ⟨.inl rfl, rfl⟩, List.Subset.refl _⟩

/-- At a line break the scanner goes on within the innermost construct: it emits text there or
skips the blank. -/
theorem State.step_fills {state : State} (hnewline : state.rest.head? = some '\n') :
    state.step.Fills state.modes := by
  obtain ⟨rest, hrest⟩ := List.head?_eq_some_iff.1 hnewline
  unfold State.step
  rw [hrest]
  dsimp only
  split
  · rename_i hmodes
    rw [hmodes, contentStep_newline]
    exact ⟨.inl ⟨rfl, rfl⟩, List.Subset.refl _⟩
  · rename_i quote start outer hmodes
    rw [hmodes]
    exact quotedStep_fills _ _ _ _ _
  · -- in a tag and in an expression a newline is passed over
    rw [if_pos (by simp [Text.isBlank])]
    trivial
  · rw [if_pos (by simp [Text.isBlank])]
    trivial

/-! ## What steps point at -/

/-- A step that fails does so for a reason of the scanner's own, on some of the
remaining characters, and one that enters a construct notes where it stands. -/
def Step.Points (offset : Nat) (cs : List Char) (modes : List OpenMode) : Step → Prop
  | .emit _ _ _ next => ∀ opened ∈ next, opened ∈ modes ∨ opened.start = offset
  | .skip _ => True
  | .fail fault width => fault.Lexical ∧ 0 < width ∧ width ≤ cs.length

/-- A mode that is open after a step was open before it or starts where the step does. -/
theorem Transition.mem_or_start {state : State} {kind : Kind} {value : List Char}
    {modes : List OpenMode} (h : Transition state kind value modes) :
    ∀ opened ∈ modes, opened ∈ state.modes ∨ opened.start = state.offset := by
  intro opened hmem
  cases h with
  | keep => exact .inl hmem
  | enter mode =>
      rcases List.mem_cons.1 hmem with rfl | hmem
      · exact .inr rfl
      · exact .inl hmem
  | leave left _ hmodes =>
      rw [hmodes]
      exact .inl (List.mem_cons_of_mem _ hmem)

theorem Braces.length_eq {cs left inner : List Char} (h : Braces cs left inner) :
    cs.length = left.length + 2 + inner.length := by
  rw [h.text]
  simp only [List.length_cons, List.length_append]
  omega

/-- A failure at braces covers some of the text from the braces on. -/
theorem AtBraces.points {offset : Nat} {cs : List Char} {modes : List OpenMode} {fault : Fault}
    {width : Nat} (h : AtBraces offset cs modes (.fail fault width)) :
    fault.Lexical ∧ 0 < width ∧ width ≤ cs.length := by
  cases h with
  | unterminated hbraces =>
      have hlength := hbraces.length_eq
      rw [List.length_cons, List.length_append] at hlength
      exact ⟨trivial, by omega, by omega⟩
  | partialCall hbraces | caretSection hbraces =>
      have hlength := hbraces.length_eq
      rw [List.length_cons] at hlength
      exact ⟨trivial, Nat.succ_pos _, by omega⟩

/-- A step that fails points at some of the text from where it stands. -/
theorem State.step_points (state : State) (hne : state.rest ≠ []) :
    state.step.Points state.offset state.rest state.modes := by
  have hlength : 0 < state.rest.length := List.length_pos_iff.2 hne
  cases hstep : state.step with
  | emit kind value width modes => exact (State.transition_of_step hstep).mem_or_start
  | skip width => trivial
  | fail fault width =>
      cases State.takes_of_step hstep with
      | braces _ _ hbraces => exact hbraces.points
      | openHtmlComment _ hrest | malformedEndTag _ hrest =>
          refine ⟨trivial, Nat.succ_pos _, ?_⟩
          rw [hrest]
          simp
      | _ => exact ⟨trivial, Nat.succ_pos _, hlength⟩

/-! ## Scans -/

section Scans

variable {text : List Char} {state : State}

theorem State.head?_rest (hrest : state.rest = text.drop state.offset) :
    state.rest.head? = text[state.offset]? := by
  rw [hrest, List.head?_drop]

/-- Where no newline is read there is something to see. -/
theorem State.visibleAt (hrest : state.rest = text.drop state.offset) (hne : state.rest ≠ [])
    (h : state.rest.head? ≠ some '\n') : VisibleAt text state.offset := by
  obtain ⟨c, hc⟩ := Option.isSome_iff_exists.1 (List.isSome_head?.2 hne)
  refine ⟨c, (State.head?_rest hrest).symm.trans hc, ?_⟩
  rintro rfl
  exact h hc

/-- A construct is entered at a character that can be seen. -/
theorem State.visibleAt_of_emit {kind : Kind} {value : List Char} {width : Nat}
    {modes : List OpenMode} (hrest : state.rest = text.drop state.offset)
    (hne : state.rest ≠ []) (hstep : state.step = .emit kind value width modes)
    (hmodes : ∀ opened ∈ state.modes, VisibleAt text opened.start) :
    ∀ opened ∈ modes, VisibleAt text opened.start := by
  intro opened hmem
  -- at a newline no construct is entered
  by_cases hnewline : state.rest.head? = some '\n'
  · have hfills := State.step_fills hnewline
    rw [hstep] at hfills
    exact hmodes opened (hfills.2 hmem)
  · have hpoints := state.step_points hne
    rw [hstep] at hpoints
    rcases hpoints opened hmem with hmem | hstart
    · exact hmodes opened hmem
    · rw [hstart]
      exact State.visibleAt hrest hne hnewline

/-- A token that starts at a line break fills the construct it stands in. -/
theorem fills_scanFrom (state : State) (hrest : state.rest = text.drop state.offset)
    {front back : List Token} {token : Token}
    (htokens : (scanFrom (Lines.ofText text) state).tokens = front ++ token :: back)
    (hnewline : text[token.start]? = some '\n') :
    token.kind.Fills (openAfter (constructs state.modes) front) := by
  fun_induction traceFrom (Lines.ofText text) state generalizing front with
  | case1 state hnil =>
      rw [scanFrom_nil hnil] at htokens
      cases front <;> cases htokens
  | case2 state hne kind value width modes hstep ih =>
      rw [scanFrom_emit hne hstep] at htokens
      cases front with
      | nil =>
          cases htokens
          have hfills := State.step_fills ((State.head?_rest hrest).trans hnewline)
          rw [hstep] at hfills
          exact hfills.1
      | cons first front =>
          obtain ⟨rfl, hback⟩ := List.cons.inj htokens
          have hmoves := (State.moves_of_step hstep).constructs_eq
          show token.kind.Fills (openAfter (kind.reshape (constructs state.modes)) front)
          rw [← hmoves]
          exact ih (State.rest_advance hrest _ _ _) hback
  | case3 state hne width hstep ih =>
      rw [scanFrom_skip hne hstep] at htokens
      exact ih (State.rest_advance hrest _ _ _) htokens
  | case4 state hne fault width hstep =>
      rw [scanFrom_fail hne hstep] at htokens
      cases front <;> cases htokens

/-- What a scan rejects can be seen, if all open modes start where they can be. -/
theorem visible_scanFrom (state : State) (hrest : state.rest = text.drop state.offset)
    (hmodes : ∀ opened ∈ state.modes, VisibleAt text opened.start) {rejection : Rejection}
    (hrejection : (scanFrom (Lines.ofText text) state).rejection = some rejection) :
    rejection.fault.Lexical ∧ rejection.span.Visible text := by
  fun_induction traceFrom (Lines.ofText text) state with
  | case1 state hnil =>
      -- the text ends inside a construct: its first character is pointed at
      rw [scanFrom_nil hnil] at hrejection
      obtain ⟨opened, hopened, rfl⟩ := Option.map_eq_some_iff.1 hrejection
      have hvisible := hmodes opened (List.mem_of_mem_head? hopened)
      exact ⟨trivial, visible_span Nat.zero_lt_one hvisible.lt_length hvisible⟩
  | case2 state hne kind value width modes hstep ih =>
      rw [scanFrom_emit hne hstep] at hrejection
      exact ih (State.rest_advance hrest _ _ _) (State.visibleAt_of_emit hrest hne hstep hmodes)
        hrejection
  | case3 state hne width hstep ih =>
      rw [scanFrom_skip hne hstep] at hrejection
      exact ih (State.rest_advance hrest _ _ _) hmodes hrejection
  | case4 state hne fault width hstep =>
      rw [scanFrom_fail hne hstep] at hrejection
      cases hrejection
      have hpoints := state.step_points hne
      rw [hstep] at hpoints
      obtain ⟨hlexical, hwidth, hle⟩ := hpoints
      -- no step fails at a newline
      have hnewline : state.rest.head? ≠ some '\n' := by
        intro hnewline
        have hfills := State.step_fills hnewline
        rw [hstep] at hfills
        exact hfills
      refine ⟨hlexical, visible_span hwidth ?_ (State.visibleAt hrest hne hnewline)⟩
      rw [hrest, List.length_drop] at hle
      omega

end Scans

/-- A token that starts with a newline is text between tags or stands in a quoted value. -/
theorem fills_of_newline {source : String} {front back : List Token} {token : Token}
    (htokens : (ofText source).tokens = front ++ token :: back)
    (hnewline : source.toList[token.start]? = some '\n') :
    token.kind.Fills (openAfter [] front) :=
  fills_scanFrom (State.initial source.toList) rfl htokens hnewline

/-- The scanner rejects a text at characters of it that can be seen. -/
theorem visible_of_rejection {source : String} {rejection : Rejection}
    (h : (ofText source).rejection = some rejection) :
    rejection.fault.Lexical ∧ rejection.span.Visible source.toList :=
  visible_scanFrom (State.initial source.toList) rfl nofun h

end Scan

end TemplateUsage
