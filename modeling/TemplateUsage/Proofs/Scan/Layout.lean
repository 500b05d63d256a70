import TemplateUsage.Proofs.Location.Counting
import TemplateUsage.Proofs.Scan.Constructs
import TemplateUsage.Proofs.Scan.Lossless

set_option autoImplicit false

/-!
# Where the tokens of a scan stand

`Laid` says of tokens, from an offset on and with certain constructs open, that each
stands after the one before it, directly after it where no construct is open, and
that its place is counted right. The kinds of the tokens say which constructs are open
between them, so nothing of the scanner's states is left in it. The tokens of every
text are laid out from its beginning on (`laid_ofText`).
-/

namespace TemplateUsage.Scan

/-- How the tokens that stand around a list of statements are spelled. -/
def Spelled : Kind → List Char → Prop
  | .tagEnd, value => value = ['>']
  | .closeCurly, value => ['\x7d', '\x7d'] <:+ value
  | .openElse, value | .openEndBlock, value => ['\x7b', '\x7b'] <+: value
  | _, _ => True

/-- A token that moves the modes on is spelled as its kind asks. -/
theorem Moves.spelled {modes next : List OpenMode} {kind : Kind} {value : List Char}
    (h : Moves modes kind value next) : Spelled kind value := by
  cases h with
  | keep hkeeps =>
      -- the kinds with a spelling of their own enter a construct or leave one
      have hexpression := hkeeps [.expression]
      cases kind with
      | tagEnd | closeCurly | openElse | openEndBlock => cases hexpression
      | _ => trivial
  | enter opened hopened =>
      cases hmode : opened.mode with
      | tag name =>
          rw [hmode] at hopened
          obtain ⟨rfl, -⟩ := hopened
          trivial
      | quoted quote =>
          rw [hmode] at hopened
          obtain ⟨rfl, -⟩ := hopened
          trivial
      | expression closer =>
          rw [hmode] at hopened
          cases closer with
          | double =>
              obtain ⟨hkind, hbraces⟩ := hopened
              simp only [List.mem_cons, List.not_mem_nil, or_false] at hkind
              rcases hkind with rfl | rfl | rfl | rfl
              · trivial
              · trivial
              · exact hbraces
              · exact hbraces
          | triple =>
              obtain ⟨rfl, -⟩ := hopened
              trivial
  | leave opened outer hmodes hclosed =>
      cases hmode : opened.mode with
      | tag name =>
          rw [hmode] at hclosed
          rcases hclosed with ⟨rfl, -⟩ | ⟨rfl | rfl, hvalue⟩
          · trivial
          · exact hvalue
          · trivial
      | quoted quote =>
          rw [hmode] at hclosed
          obtain ⟨rfl, -⟩ := hclosed
          trivial
      | expression closer =>
          rw [hmode] at hclosed
          cases closer with
          | double =>
              obtain ⟨rfl, hbraces⟩ := hclosed
              exact hbraces
          | triple =>
              obtain ⟨rfl, -⟩ := hclosed
              trivial

/-- A token that stands in the text where its span says, counted right. -/
structure Located (text : List Char) (token : Token) : Prop where
  placed : Placed text token
  span_eq : token.lexeme.span = ⟨Point.counted text token.start, Point.counted text token.stop⟩
  spelled : Spelled token.kind token.lexeme.value.toList

/-- From an offset on, with the constructs `opened` around them, the tokens stand one
after the other; where no construct is open nothing stands between them. -/
def Laid (text : List Char) : List Construct → Nat → List Token → Prop
  | _, _, [] => True
  | opened, offset, token :: rest =>
      offset ≤ token.start ∧ (opened = [] → token.start = offset) ∧ Located text token ∧
        Laid text (token.kind.reshape opened) token.stop rest

/-- The constructs open after tokens. -/
def openAfter (opened : List Construct) (tokens : List Token) : List Construct :=
  tokens.foldl (fun opened token => token.kind.reshape opened) opened

/-- The offset at which tokens end, given the offset before them. -/
def stopAfter (offset : Nat) (tokens : List Token) : Nat :=
  tokens.foldl (fun _ token => token.stop) offset

@[simp] theorem openAfter_nil (opened : List Construct) : openAfter opened [] = opened := rfl

@[simp] theorem openAfter_cons (opened : List Construct) (token : Token) (rest : List Token) :
    openAfter opened (token :: rest) = openAfter (token.kind.reshape opened) rest := rfl

@[simp] theorem openAfter_append (opened : List Construct) (front back : List Token) :
    openAfter opened (front ++ back) = openAfter (openAfter opened front) back :=
  List.foldl_append

@[simp] theorem stopAfter_nil (offset : Nat) : stopAfter offset [] = offset := rfl

@[simp] theorem stopAfter_cons (offset : Nat) (token : Token) (rest : List Token) :
    stopAfter offset (token :: rest) = stopAfter token.stop rest := rfl

@[simp] theorem stopAfter_append (offset : Nat) (front back : List Token) :
    stopAfter offset (front ++ back) = stopAfter (stopAfter offset front) back :=
  List.foldl_append

/-- The stop after tokens is that of the last one. -/
theorem stopAfter_of_getLast {tokens : List Token} {last : Token}
    (h : tokens.getLast? = some last) (offset : Nat) : stopAfter offset tokens = last.stop := by
  obtain ⟨front, rfl⟩ := List.getLast?_eq_some_iff.1 h
  simp

section Laid

variable {text : List Char} {opened : List Construct} {offset : Nat}

/-- Tokens are laid out exactly when the first are, and the others are where those stop. -/
theorem laid_append {front back : List Token} :
    Laid text opened offset (front ++ back) ↔
      Laid text opened offset front ∧
        Laid text (openAfter opened front) (stopAfter offset front) back := by
  induction front generalizing opened offset with
  | nil => simp [Laid]
  | cons token rest ih =>
      rw [List.cons_append, Laid, Laid, ih, openAfter_cons, stopAfter_cons]
      simp only [and_assoc]

theorem Laid.located {tokens : List Token} (h : Laid text opened offset tokens) :
    ∀ token ∈ tokens, Located text token := by
  induction tokens generalizing opened offset with
  | nil => nofun
  | cons first rest ih =>
      obtain ⟨-, -, hlocated, hrest⟩ := h
      intro token hmem
      rcases List.mem_cons.1 hmem with rfl | hmem
      · exact hlocated
      · exact ih hrest token hmem

theorem Laid.le_stopAfter {tokens : List Token} (h : Laid text opened offset tokens) :
    offset ≤ stopAfter offset tokens := by
  induction tokens generalizing opened offset with
  | nil => exact Nat.le_refl _
  | cons first rest ih =>
      obtain ⟨hle, -, hlocated, hrest⟩ := h
      exact (hle.trans hlocated.placed.start_lt.le).trans (ih hrest)

/-- The first token of several starts before all of them end. -/
theorem Laid.start_lt_stopAfter {first : Token} {rest : List Token}
    (h : Laid text opened offset (first :: rest)) :
    offset ≤ first.start ∧ first.start < stopAfter offset (first :: rest) := by
  obtain ⟨hle, -, hlocated, hrest⟩ := h
  exact ⟨hle, hlocated.placed.start_lt.trans_le hrest.le_stopAfter⟩

/-- Tokens that are laid out start one after the other, from the offset on. -/
theorem Laid.pairwise {tokens : List Token} (h : Laid text opened offset tokens) :
    (∀ token ∈ tokens, offset ≤ token.start) ∧
      tokens.Pairwise fun first next => first.start < next.start := by
  induction tokens generalizing opened offset with
  | nil => exact ⟨nofun, .nil⟩
  | cons first rest ih =>
      obtain ⟨hle, -, hlocated, hrest⟩ := h
      obtain ⟨hafter, hpairwise⟩ := ih hrest
      have hlt : first.start < first.stop := hlocated.placed.start_lt
      constructor
      · intro token hmem
        rcases List.mem_cons.1 hmem with rfl | hmem
        · exact hle
        · have hstop := hafter token hmem
          omega
      · exact List.pairwise_cons.2 ⟨fun next hmem => hlt.trans_le (hafter next hmem), hpairwise⟩

/-- A token is found again by where it starts. -/
theorem Laid.front_unique {front back others rest : List Token} {token same : Token}
    (h : Laid text opened offset (front ++ token :: back))
    (hsplit : front ++ token :: back = others ++ same :: rest)
    (hstart : token.start = same.start) : front = others := by
  have hlt := h.pairwise.2
  -- of two places for the same start the later one would start later
  have hlater : ∀ {front back others rest : List Token} {token same : Token},
      (front ++ token :: back).Pairwise (fun first next : Token => first.start < next.start) →
      ∀ middle, token :: back = middle ++ same :: rest → others = front ++ middle →
      token.start = same.start → front = others := by
    intro front back others rest token same hlt middle hback hothers hstart
    cases middle with
    | nil => exact (hothers.trans (List.append_nil front)).symm
    | cons first middle =>
        obtain ⟨rfl, rfl⟩ := List.cons.inj hback
        have hmem : same ∈ middle ++ same :: rest := by simp
        have hsame := (List.pairwise_cons.1 (List.pairwise_append.1 hlt).2.1).1 same hmem
        omega
  rcases List.append_eq_append_iff.1 hsplit with ⟨middle, hothers, hback⟩ | ⟨middle, hfront, hrest⟩
  · exact hlater hlt middle hback hothers hstart
  · rw [hsplit] at hlt
    exact (hlater hlt middle hrest hfront hstart.symm).symm

end Laid

/-! ## Scans -/

/-- The token of a step stands at the front of the remaining text. -/
theorem located_of_step {text : List Char} {state : State} {kind : Kind} {value : List Char}
    {width : Nat} {modes : List OpenMode} (hrest : state.rest = text.drop state.offset)
    (hne : state.rest ≠ []) (hstep : state.step = .emit kind value width modes) :
    Located text (state.token (Lines.ofText text) kind value width) := by
  have hplaced := placed_of_step (Lines.ofText text) hrest hne hstep
  have hstart := hplaced.start_lt.le.trans hplaced.stop_le
  refine ⟨hplaced, ?_, ?_⟩
  · rw [State.start_token] at hstart ⊢
    exact Lines.span_ofText hstart hplaced.stop_le
  · have hspelled := (State.moves_of_step hstep).spelled
    simpa [State.token] using hspelled

/-- The tokens scanned from a state are laid out in the text. Where a tag or an expression is
open, blanks may come before the first. -/
theorem laid_traceFrom {text : List Char} (state : State) {start : Nat}
    (hrest : state.rest = text.drop state.offset) (hstart : start ≤ state.offset)
    (hnone : state.modes = [] → start = state.offset) :
    Laid text (constructs state.modes) start
      ((traceFrom (Lines.ofText text) state).map Emission.token) := by
  fun_induction traceFrom (Lines.ofText text) state generalizing start with
  | case1 state hnil => trivial
  | case2 state hne kind value width modes hstep ih =>
      have hlocated := located_of_step hrest hne hstep
      have hmoves := (State.moves_of_step hstep).constructs_eq
      refine ⟨hstart, fun hopened => (hnone (constructs_eq_nil.1 hopened)).symm, hlocated, ?_⟩
      rw [State.stop_token]
      show Laid text (kind.reshape (constructs state.modes)) (state.offset + width) _
      rw [← hmoves]
      exact ih (State.rest_advance hrest _ _ _) (Nat.le_refl _) fun _ => rfl
  | case3 state hne width hstep ih =>
      -- blanks are passed over inside a construct only, so the next token need not be near
      have hpasses := State.passesBlanks_of_step hstep
      refine ih (State.rest_advance hrest _ _ _) (hstart.trans (Nat.le_add_right _ _)) ?_
      intro hmodes
      have hmodes : state.modes = [] := hmodes
      rw [hmodes] at hpasses
      exact absurd hpasses not_passesBlanks_nil
  | case4 state hne fault width hstep => trivial

/-- The tokens of a text are laid out from its beginning on. -/
theorem laid_ofText (source : String) : Laid source.toList [] 0 (ofText source).tokens := by
  rw [← map_token_trace source]
  exact laid_traceFrom (State.initial source.toList) rfl (Nat.le_refl _) fun _ => rfl

/-- Without a fault the tokens of a text end where it does. -/
theorem stopAfter_ofText {source : String} (h : (ofText source).rejection = none) :
    stopAfter 0 (ofText source).tokens = source.length := by
  obtain ⟨stop, final, htiles, hend⟩ := exists_tiles_trace source
  obtain ⟨rfl, rfl⟩ := hend h
  obtain ⟨hlast, hnil⟩ := htiles.stop_of_getLast
  rw [← map_token_trace source]
  cases htrace : (trace source).getLast? with
  | none =>
      obtain hempty := List.getLast?_eq_none_iff.1 htrace
      rw [hempty]
      exact hnil hempty
  | some emission =>
      rw [← hlast emission htrace]
      exact stopAfter_of_getLast (by rw [List.getLast?_map, htrace]; rfl) 0

end TemplateUsage.Scan
