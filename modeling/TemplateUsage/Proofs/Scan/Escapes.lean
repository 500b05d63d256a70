import TemplateUsage.Proofs.Scan.Comments

set_option autoImplicit false

/-!
# Backslashes before an expression

Whether two opening braces in content open an expression depends on the number of
backslashes in front of them: one escapes them, and any other number does not. Text takes
in two or more backslashes and stops at the braces (`textRun_backslashes_braces`); before
a single one it stops, and what is escaped goes on to the first two closing braces
(`exists_escapedPart`). Main statement: `backslashes_before_braces`.
-/

namespace TemplateUsage

/-- The kinds of token that open an expression. -/
def Kind.curlyOpeners : List Kind :=
  [.openCurly, .openTriple, .openBlock, .openEndBlock, .openElse]

/-- The faults that can be found at two opening braces. -/
def Fault.atBraces : List Fault :=
  [.partialCall, .caretSection, .unterminatedComment .long, .unterminatedComment .short]

namespace Scan

/-! ## Text up to braces -/

/-- No character of the text stops it or is a backslash. -/
def Plain (cs : List Char) : Prop := ∀ c ∈ cs, c ∉ ['<', '\x7b', '\\']

theorem textRun_cons_plain {c : Char} (hc : c ∉ ['<', '\x7b', '\\']) (rest : List Char) :
    textRun (c :: rest) = c :: textRun rest := by
  simp only [List.mem_cons, List.not_mem_nil, or_false, not_or] at hc
  obtain ⟨hmarkup, hbrace, hbackslash⟩ := hc
  have hstarts : ∀ d more, c ≠ d → startsWith (d :: more) (c :: rest) = false := by
    intro d more hne
    exact startsWith_eq_false fun tail heq => hne (List.cons.inj heq).1
  rw [textRun_cons, halts, hstarts _ _ hbackslash, hstarts _ _ hbrace, hstarts _ _ hmarkup,
    hstarts _ _ hbackslash]
  rfl

theorem textRun_plain_append {plain : List Char} (hplain : Plain plain) (rest : List Char) :
    textRun (plain ++ rest) = plain ++ textRun rest := by
  induction plain with
  | nil => rfl
  | cons c more ih =>
      obtain ⟨hc, hmore⟩ := List.forall_mem_cons.1 hplain
      rw [List.cons_append, textRun_cons_plain hc, ih hmore, List.cons_append]

theorem textRun_braces (rest : List Char) : textRun ('\x7b' :: '\x7b' :: rest) = [] := by
  rw [textRun]

theorem textRun_escape (rest : List Char) :
    textRun ('\\' :: '\x7b' :: '\x7b' :: rest) = [] := by
  rw [textRun]

/-- Two or more backslashes before braces are text. All but the last two are text because
no braces follow them, and those two are because braces do. -/
theorem textRun_backslashes_braces (count : Nat) (rest : List Char) :
    textRun (List.replicate (count + 2) '\\' ++ '\x7b' :: '\x7b' :: rest) =
      List.replicate (count + 2) '\\' := by
  induction count with
  | zero => exact textRun.eq_2 rest
  | succ count ih =>
      have hnext : List.replicate (count + 2) '\\' ++ '\x7b' :: '\x7b' :: rest =
          '\\' :: '\\' :: (List.replicate count '\\' ++ '\x7b' :: '\x7b' :: rest) := rfl
      rw [List.replicate_succ, List.cons_append, textRun_cons, ih, hnext]
      rfl

/-! ## What is escaped -/

/-- The text before the first two closing braces does not hold two, nor does it together
with the first of them. -/
theorem not_braces_infix_of_breakAt {cs inside : List Char} {width : Nat}
    (h : breakAt (stopAt ['\x7d', '\x7d']) cs = some (inside, width)) :
    ¬ ['\x7d', '\x7d'] <:+: inside ++ ['\x7d'] := by
  obtain ⟨after, -, hstop, hfirst⟩ := breakAt_eq_some h
  obtain ⟨-, tail, rfl⟩ := stopAt_eq_some hstop
  rintro ⟨left, right, hsplit⟩
  rcases List.eq_nil_or_concat right with rfl | ⟨right, last, rfl⟩
  · have hinside : left ++ ['\x7d'] = inside := by
      rw [← List.append_left_inj ['\x7d'], ← hsplit]
      simp
    exact absurd (hfirst left '\x7d' [] hinside.symm) (by simp [stopAt, startsWith])
  · have hinside : left ++ '\x7d' :: '\x7d' :: right = inside := by
      rw [List.concat_eq_append, ← List.append_assoc] at hsplit
      simpa using (List.append_inj' hsplit rfl).1
    exact absurd (hfirst left '\x7d' _ hinside.symm) (by simp [stopAt, startsWith])

/-- The part of a text that an escape takes with it: up to and including the first two
closing braces, or none of it where there are no two. -/
inductive EscapedPart (rest : List Char) : List Char → Prop where
  | closed {inside : List Char} : inside ++ ['\x7d', '\x7d'] <+: rest →
      ¬ ['\x7d', '\x7d'] <:+: inside ++ ['\x7d'] →
      EscapedPart rest (inside ++ ['\x7d', '\x7d'])
  | unclosed : ¬ ['\x7d', '\x7d'] <:+: rest → EscapedPart rest []

theorem exists_escapedPart (rest : List Char) :
    ∃ part, EscapedPart rest part ∧
      escapedRun ('\x7b' :: '\x7b' :: rest) = '\x7b' :: '\x7b' :: part := by
  rw [escapedRun]
  split
  · rename_i inside width hbreak
    refine ⟨inside ++ ['\x7d', '\x7d'], .closed ?_ (not_braces_infix_of_breakAt hbreak), rfl⟩
    obtain ⟨after, rfl, hstop, -⟩ := breakAt_eq_some hbreak
    obtain ⟨-, tail, rfl⟩ := stopAt_eq_some hstop
    exact ⟨tail, by simp⟩
  · rename_i hbreak
    exact ⟨[], .unclosed (breakAt_stopAt_eq_none_iff.1 hbreak), rfl⟩

/-! ## What opens -/

/-- What a step at two opening braces in content does: it enters an expression that opens
there, finds a comment, or rejects what stands there. -/
inductive Step.OpensAt (offset : Nat) : Step → Prop where
  | expression {kind : Kind} {value : List Char} {width : Nat} {closer : Closer} :
      kind ∈ Kind.curlyOpeners → ['\x7b', '\x7b'] <+: value →
      OpensAt offset (.emit kind value width [⟨.expression closer, offset⟩])
  | comment {value : List Char} {width : Nat} : OpensAt offset (.emit .curlyComment value width [])
  | rejected {fault : Fault} {width : Nat} : fault ∈ Fault.atBraces →
      OpensAt offset (.fail fault width)

theorem Opener.kind_mem {kind : Kind} {closer : Closer} {more rest : List Char}
    (h : Opener kind closer more rest) : kind ∈ Kind.curlyOpeners := by
  cases h <;> decide

theorem AtBraces.opensAt {offset : Nat} {cs : List Char} {step : Step}
    (h : AtBraces offset cs [] step) : step.OpensAt offset := by
  cases h with
  | opener _ hopener => exact .expression hopener.kind_mem ⟨_, rfl⟩
  | comment => exact .comment
  | unterminated _ hcomment => cases hcomment <;> exact .rejected (by decide)
  | partialCall | caretSection => exact .rejected (by decide)

/-! ## Runs -/

/-- The scanner stands in content, at this offset and before this text. -/
structure State.InContent (state : State) (offset : Nat) (rest : List Char) : Prop where
  offset : state.offset = offset
  rest : state.rest = rest
  modes : state.modes = []

theorem State.InContent.opensAt {state : State} {offset : Nat} {rest : List Char}
    (h : state.InContent offset ('\x7b' :: '\x7b' :: rest)) : state.step.OpensAt offset := by
  obtain ⟨offset, text, modes, awaitsValue⟩ := state
  obtain ⟨rfl, rfl, rfl⟩ := h
  exact (atBraces_openCurly rfl).opensAt

/-- The piece of a text that starts at the offset; there is none if the text is empty. -/
def textPieces (offset : Nat) (text : List Char) : List Piece :=
  if text = [] then [] else [⟨.text, text, offset, offset + text.length⟩]

/-- A text up to where it stops is read in one piece. -/
theorem State.InContent.run_text {state : State} {offset : Nat} {text rest : List Char}
    (h : state.InContent offset (text ++ rest)) (htext : textRun (text ++ rest) = text) :
    ∃ middle, Run state (textPieces offset text) middle ∧
      middle.InContent (offset + text.length) rest := by
  rw [textPieces]
  by_cases hempty : text = []
  · subst hempty
    exact ⟨state, .refl _, h⟩
  · rw [if_neg hempty]
    obtain ⟨start, chars, modes, awaitsValue⟩ := state
    obtain ⟨rfl, rfl, rfl⟩ := h
    have hhalts : halts (text ++ rest) = false := halts_eq_false_of_textRun (by rwa [htext])
    have hstep : State.step ⟨start, text ++ rest, [], awaitsValue⟩ =
        .emit .text text text.length [] := by
      have hcontent := State.step_text ⟨start, text ++ rest, [], awaitsValue⟩ rfl hhalts
      dsimp only at hcontent
      rw [htext] at hcontent
      exact hcontent
    refine ⟨_, .emit (List.append_ne_nil_of_left_ne_nil hempty _) hstep (.refl _), ?_⟩
    exact ⟨rfl, List.drop_left, rfl⟩

/-- A backslash before braces is read with what it escapes, and nothing is opened. -/
theorem State.InContent.run_escape {state : State} {offset : Nat} {rest : List Char}
    (h : state.InContent offset ('\\' :: '\x7b' :: '\x7b' :: rest)) :
    ∃ part final, EscapedPart rest part ∧
      Run state [⟨.text, '\x7b' :: '\x7b' :: part, offset, offset + (part.length + 3)⟩] final ∧
      final.InContent (offset + (part.length + 3)) (rest.drop part.length) := by
  obtain ⟨part, hpart, hrun⟩ := exists_escapedPart rest
  obtain ⟨start, chars, modes, awaitsValue⟩ := state
  obtain ⟨rfl, rfl, rfl⟩ := h
  have hstep : State.step ⟨start, '\\' :: '\x7b' :: '\x7b' :: rest, [], awaitsValue⟩ =
      .emit .text (escapedRun ('\x7b' :: '\x7b' :: rest))
        ((escapedRun ('\x7b' :: '\x7b' :: rest)).length + 1) [] := rfl
  rw [hrun] at hstep
  exact ⟨part, _, hpart, .emit (List.cons_ne_nil _ _) hstep (.refl _), rfl, rfl, rfl⟩

/-- What becomes of backslashes before two opening braces in content, after any text without
markup, braces and backslashes. If there is none, the text is emitted, if there is any, and
the braces open or are rejected. A single one is dropped: after the text comes one more text,
the braces with all up to and including the first two closing braces, or the braces alone if
there are no two, and nothing is opened. Two or more are text, all of them, in one token with
the text before them, and the braces open or are rejected. -/
theorem backslashes_before_braces {state : State} {plain rest : List Char} {count : Nat}
    (hmodes : state.modes = []) (hplain : Plain plain)
    (hrest : state.rest =
      plain ++ (List.replicate count '\\' ++ '\x7b' :: '\x7b' :: rest)) :
    (count = 0 → ∃ middle, Run state (textPieces state.offset plain) middle ∧
      middle.InContent (state.offset + plain.length) ('\x7b' :: '\x7b' :: rest) ∧
      middle.step.OpensAt (state.offset + plain.length)) ∧
    (count = 1 → ∃ part final, EscapedPart rest part ∧
      Run state (textPieces state.offset plain ++
        [⟨.text, '\x7b' :: '\x7b' :: part, state.offset + plain.length,
          state.offset + plain.length + (part.length + 3)⟩]) final ∧
      final.InContent (state.offset + plain.length + (part.length + 3))
        (rest.drop part.length)) ∧
    (2 ≤ count → ∃ middle,
      Run state [⟨.text, plain ++ List.replicate count '\\', state.offset,
        state.offset + (plain.length + count)⟩] middle ∧
      middle.InContent (state.offset + (plain.length + count)) ('\x7b' :: '\x7b' :: rest) ∧
      middle.step.OpensAt (state.offset + (plain.length + count))) := by
  have hstate : state.InContent state.offset
      (plain ++ (List.replicate count '\\' ++ '\x7b' :: '\x7b' :: rest)) := ⟨rfl, hrest, hmodes⟩
  refine ⟨?_, ?_, fun hcount => ?_⟩
  · rintro rfl
    have hstops : textRun (plain ++ '\x7b' :: '\x7b' :: rest) = plain := by
      rw [textRun_plain_append hplain, textRun_braces, List.append_nil]
    obtain ⟨middle, hrun, hmiddle⟩ := State.InContent.run_text hstate hstops
    exact ⟨middle, hrun, hmiddle, hmiddle.opensAt⟩
  · rintro rfl
    have hstops : textRun (plain ++ '\\' :: '\x7b' :: '\x7b' :: rest) = plain := by
      rw [textRun_plain_append hplain, textRun_escape, List.append_nil]
    obtain ⟨middle, hrun, hmiddle⟩ := State.InContent.run_text hstate hstops
    obtain ⟨part, final, hpart, hescape, hfinal⟩ := hmiddle.run_escape
    exact ⟨part, final, hpart, hrun.trans hescape, hfinal⟩
  · obtain ⟨more, rfl⟩ := Nat.exists_eq_add_of_le' hcount
    have hstops : textRun (plain ++ List.replicate (more + 2) '\\' ++ '\x7b' :: '\x7b' :: rest) =
        plain ++ List.replicate (more + 2) '\\' := by
      rw [List.append_assoc, textRun_plain_append hplain, textRun_backslashes_braces]
    rw [← List.append_assoc] at hstate
    obtain ⟨middle, hrun, hmiddle⟩ := hstate.run_text hstops
    rw [textPieces, if_neg (by simp)] at hrun
    rw [List.length_append, List.length_replicate] at hrun hmiddle
    exact ⟨middle, hrun, hmiddle, hmiddle.opensAt⟩

/-- Braces behind one backslash, closed further on than they are used. -/
def oneBackslash : List Char := "a\\\x7b\x7bb\x7d\x7d\x7d".toList

/-- Braces behind three backslashes. -/
def threeBackslashes : List Char := "a\\\\\\\x7b\x7bb\x7d\x7d".toList

/-- One backslash takes the braces out of the template; of three, none does, and the braces
open an expression or are rejected where they stand. -/
theorem backslashes_before_braces_oneAndThree :
    (∃ part final, EscapedPart "b\x7d\x7d\x7d".toList part ∧
      Run (.initial oneBackslash)
        [⟨.text, ['a'], 0, 1⟩, ⟨.text, '\x7b' :: '\x7b' :: part, 1, 1 + (part.length + 3)⟩]
        final ∧ final.modes = []) ∧
    ∃ middle, Run (.initial threeBackslashes) [⟨.text, "a\\\\\\".toList, 0, 4⟩] middle ∧
      middle.step.OpensAt 4 := by
  have hplain : Plain ['a'] := by
    rintro c hc
    rw [List.mem_singleton.1 hc]
    decide
  have hrestOne : (State.initial oneBackslash).rest =
      ['a'] ++ (List.replicate 1 '\\' ++ '\x7b' :: '\x7b' :: "b\x7d\x7d\x7d".toList) := by decide
  have hrestThree : (State.initial threeBackslashes).rest =
      ['a'] ++ (List.replicate 3 '\\' ++ '\x7b' :: '\x7b' :: "b\x7d\x7d".toList) := by decide
  obtain ⟨-, hone, -⟩ := backslashes_before_braces rfl hplain hrestOne
  obtain ⟨-, -, hthree⟩ := backslashes_before_braces rfl hplain hrestThree
  obtain ⟨part, final, hpart, hrun, hfinal⟩ := hone rfl
  obtain ⟨middle, hopened, -, hopens⟩ := hthree (by decide)
  exact ⟨⟨part, final, hpart, hrun, hfinal.modes⟩, middle, hopened, hopens⟩

end Scan

end TemplateUsage
