import TemplateUsage.Proofs.Scan.Excerpt
import TemplateUsage.Proofs.Scan.Exchange

set_option autoImplicit false

/-!
# Runs before an exchange

The scanner reads the same tokens up to a place when the text from there on is exchanged.
A step that ends before the place does not look at what is exchanged, or sees the same
in it. For a step that ends at the place it matters which constructs are open there
(`Edge`): in a tag the text has to begin with a blank or a brace, between tags and between
quotes with two, and directly after braces that open an expression with a blank, as a mark
would be taken for theirs. Main statement: `Run.exchange`.
-/

namespace TemplateUsage.Scan

/-- A text may be exchanged after a token of this kind, where these constructs are open. -/
def Edge (kind : Kind) (modes : List OpenMode) (after : List Char) : Prop :=
  match modes with
  | ⟨.expression _, _⟩ :: _ =>
      kind = .openCurly ∨ kind = .openTriple → startsBlank after = true
  | ⟨.tag _, _⟩ :: _ => startsBlank after = true ∨ startsWith ['\x7b'] after = true
  | _ => startsWith ['\x7b', '\x7b'] after = true

section

variable {read after other : List Char}

namespace Exchange

/-! ## Tags -/

/-- A run of characters ends in `read`, or where the exchanged texts begin. -/
theorem takeWhile_eq {p : Char → Bool} (hwidth : ((read ++ after).takeWhile p).length ≤ read.length)
    (hedge : ((read ++ after).takeWhile p).length = read.length → ∀ c ∈ other.head?, p c = false) :
    (read ++ other).takeWhile p = (read ++ after).takeWhile p := by
  induction read with
  | nil =>
      obtain hnil := List.eq_nil_of_length_eq_zero (Nat.le_zero.1 hwidth)
      rw [hnil]
      rw [hnil] at hedge
      exact takeWhile_run (List.forall_mem_nil _) (hedge rfl)
  | cons c rest ih =>
      rw [List.cons_append, List.takeWhile_cons] at hwidth hedge ⊢
      rw [List.cons_append, List.takeWhile_cons]
      split at hwidth
      · rename_i hc
        rw [if_pos hc] at hedge ⊢
        rw [if_pos hc, ih (Nat.le_of_succ_le_succ hwidth) fun hlength =>
          hedge (congrArg Nat.succ hlength)]
      · rename_i hc
        rw [if_neg hc, if_neg hc]

theorem head_of_tag (h : Exchange after other)
    (hedge : startsBlank after = true ∨ startsWith ['\x7b'] after = true) :
    ∀ c ∈ other.head?, Text.isBlank c = true ∨ c = '\x7b' := by
  obtain ⟨c, rest, rfl, -⟩ := h.other_breaks
  rintro d ⟨⟩
  rcases hedge with hblank | hbrace
  · exact .inl (h.blanks.trans hblank)
  · refine .inr ?_
    obtain ⟨tail, htail⟩ := startsWith_iff.1 (h.brace.trans hbrace)
    exact (List.cons.inj htail).1.symm

theorem attributeName?_eq (h : Exchange after other) {found : Found}
    (hfound : attributeName? (read ++ after) = some found) (hwidth : found.width ≤ read.length)
    (hedge : found.width = read.length →
      startsBlank after = true ∨ startsWith ['\x7b'] after = true) :
    attributeName? (read ++ other) = some found := by
  have hname : found = .whole ((read ++ after).takeWhile isAttributeNameChar) := by
    unfold attributeName? at hfound
    split at hfound
    · cases hfound
    · cases hfound
      rfl
  subst hname
  rw [attributeName?, takeWhile_eq hwidth]
  · exact hfound
  · intro hlength c hc
    rcases h.head_of_tag (hedge hlength) c hc with hblank | rfl
    · rw [isAttributeNameChar, hblank]
      rfl
    · rfl

theorem head?_append_iff (h : Exchange after other) {c : Char} (hc : isBreak c = false) :
    (read ++ other).head? = some c ↔ (read ++ after).head? = some c := by
  cases read with
  | nil =>
      obtain ⟨d, rest, rfl, hd⟩ := h.other_breaks
      obtain ⟨e, tail, rfl, he⟩ := h.after_breaks
      simp [ne_of_isBreak hd hc, ne_of_isBreak he hc]
  | cons d rest => exact Iff.rfl

/-- A run without quotes that ends in `read` ends there again, if a blank or a brace follows a
run up to its end. -/
theorem unquotedRun_eq (h : Exchange after other)
    (hwidth : (unquotedRun (read ++ after)).length ≤ read.length)
    (hedge : (unquotedRun (read ++ after)).length = read.length →
      startsBlank after = true ∨ startsWith ['\x7b'] after = true) :
    unquotedRun (read ++ other) = unquotedRun (read ++ after) := by
  induction read with
  | nil =>
      -- the run stops where the texts differ, and the other text begins with what stops it too
      obtain hnil := List.eq_nil_of_length_eq_zero (Nat.le_zero.1 hwidth)
      rw [hnil]
      rw [hnil] at hedge
      have hhead := h.head_of_tag (hedge rfl)
      obtain ⟨c, rest, rfl, hc⟩ := h.other_breaks
      have hslash : c ≠ '/' := ne_of_isBreak hc rfl
      have hchar : isUnquotedChar c = false := by
        rcases hhead c rfl with hblank | rfl
        · rw [isUnquotedChar, hblank]
          rfl
        · rfl
      rw [List.nil_append, unquotedRun, if_neg hslash, hchar]
      rfl
  | cons c rest ih =>
      rw [List.cons_append, unquotedRun] at hwidth hedge ⊢
      rw [List.cons_append, unquotedRun]
      -- only a slash looks at the character after it, for the end of the tag
      simp only [h.head?_append_iff (c := '>') rfl]
      split at hwidth
      · rename_i hslash
        rw [if_pos hslash] at hedge ⊢
        rw [if_pos hslash]
        split at hwidth
        · rename_i hclose
          rw [if_pos hclose, if_pos hclose]
        · rename_i hclose
          rw [if_neg hclose] at hedge ⊢
          rw [if_neg hclose, ih (Nat.le_of_succ_le_succ hwidth) fun hlength =>
            hedge (congrArg Nat.succ hlength)]
      · rename_i hslash
        rw [if_neg hslash] at hedge ⊢
        rw [if_neg hslash]
        split at hwidth
        · rename_i hchar
          rw [if_pos hchar] at hedge ⊢
          rw [if_pos hchar, ih (Nat.le_of_succ_le_succ hwidth) fun hlength =>
            hedge (congrArg Nat.succ hlength)]
        · rename_i hchar
          rw [if_neg hchar, if_neg hchar]

theorem unquotedValue?_eq (h : Exchange after other) {found : Found}
    (hfound : unquotedValue? (read ++ after) = some found) (hwidth : found.width ≤ read.length)
    (hedge : found.width = read.length →
      startsBlank after = true ∨ startsWith ['\x7b'] after = true) :
    unquotedValue? (read ++ other) = some found := by
  have hvalue : found = .whole (unquotedRun (read ++ after)) := by
    unfold unquotedValue? at hfound
    split at hfound
    · cases hfound
    · cases hfound
      rfl
  subst hvalue
  rw [unquotedValue?, h.unquotedRun_eq hwidth hedge]
  exact hfound

theorem startsWith_singleton_iff {c : Char} {cs : List Char} :
    startsWith [c] cs = true ↔ cs.head? = some c := by
  rw [startsWith_iff, List.head?_eq_some_iff]
  exact ⟨fun ⟨rest, hrest⟩ => ⟨rest, hrest.symm⟩, fun ⟨rest, hrest⟩ => ⟨rest, hrest.symm⟩⟩

theorem quotedRun_eq (h : Exchange after other) {quote : Char}
    (hwidth : (quotedRun quote (read ++ after)).length ≤ read.length)
    (hedge : (quotedRun quote (read ++ after)).length = read.length →
      startsWith ['\x7b', '\x7b'] after = true) :
    quotedRun quote (read ++ other) = quotedRun quote (read ++ after) := by
  induction read with
  | nil =>
      obtain hnil := List.eq_nil_of_length_eq_zero (Nat.le_zero.1 hwidth)
      rw [hnil]
      rw [hnil] at hedge
      obtain ⟨tail, htail⟩ := startsWith_iff.1 (h.braces.trans (hedge rfl))
      rw [← htail]
      simp [quotedRun]
  | cons c rest ih =>
      have hhead : (rest ++ other).head? = some '\x7b' ↔ (rest ++ after).head? = some '\x7b' := by
        cases rest with
        | nil =>
            rw [List.nil_append, List.nil_append, ← startsWith_singleton_iff, h.brace,
              startsWith_singleton_iff]
        | cons d rest => exact Iff.rfl
      rw [List.cons_append, quotedRun] at hwidth hedge ⊢
      rw [List.cons_append, quotedRun]
      simp only [hhead]
      split at hwidth
      · rename_i hstop
        rw [if_pos hstop, if_pos hstop]
      · rename_i hstop
        rw [if_neg hstop] at hedge ⊢
        rw [if_neg hstop, ih (Nat.le_of_succ_le_succ hwidth) fun hlength =>
          hedge (congrArg Nat.succ hlength)]

theorem startTag?_eq (h : Exchange after other) {found : Found}
    (hfound : startTag? (read ++ after) = some found) (hwidth : found.width ≤ read.length)
    (hedge : found.width = read.length →
      startsBlank after = true ∨ startsWith ['\x7b'] after = true) :
    startTag? (read ++ other) = some found := by
  obtain ⟨c, rest, hcs, hname, rfl⟩ := startTag?_eq_some hfound
  match read, hwidth, hedge with
  | first :: second :: left, hwidth, hedge =>
      simp only [List.cons_append, List.cons.injEq] at hcs
      obtain ⟨rfl, rfl, rfl⟩ := hcs
      rw [List.cons_append, List.cons_append, startTag?.eq_1, if_pos hname, takeWhile_eq]
      · rfl
      · simpa using hwidth
      · intro hlength d hd
        rcases h.head_of_tag (hedge (congrArg (· + 2) hlength)) d hd with hblank | rfl
        · rw [isTagNameChar, hblank]
          rfl
        · rfl

theorem startTag?_eq_none (h : Exchange after other) (hne : read ≠ [])
    (hnone : startTag? (read ++ after) = none) : startTag? (read ++ other) = none := by
  cases hfound : startTag? (read ++ other) with
  | none => rfl
  | some found =>
      obtain ⟨c, rest, hcs, hname, -⟩ := startTag?_eq_some hfound
      match read, hne with
      | [first], _ =>
          -- no name starts with a break
          obtain ⟨d, tail, rfl, hd⟩ := h.other_breaks
          simp only [List.cons_append, List.nil_append, List.cons.injEq] at hcs
          obtain ⟨-, rfl, -⟩ := hcs
          rw [startsTagName_of_isBreak hd] at hname
          cases hname
      | first :: second :: left, _ =>
          simp only [List.cons_append, List.cons.injEq] at hcs
          obtain ⟨rfl, rfl, -⟩ := hcs
          rw [List.cons_append, List.cons_append, startTag?.eq_1, if_pos hname] at hnone
          cases hnone

/-! ## Text -/

theorem opensMarkup_eq (h : Exchange after other) :
    opensMarkup (read ++ other) = opensMarkup (read ++ after) := by
  have hbreak : ∀ more : List Char, Breaks more → opensMarkup more = false := by
    intro more hmore
    have hdashes := hmore.startsWith_eq_false (d := '!') rfl ['-', '-']
    obtain ⟨c, rest, rfl, hc⟩ := hmore
    have hslash : (c == '/') = false := beq_eq_false_iff_ne.2 (ne_of_isBreak hc rfl)
    rw [opensMarkup, startsTagName_of_isBreak hc, hslash, hdashes]
    rfl
  cases read with
  | nil => rw [List.nil_append, List.nil_append, hbreak _ h.other_breaks, hbreak _ h.after_breaks]
  | cons c rest =>
      have hdashes : startsWith ['!', '-', '-'] (c :: (rest ++ other)) =
          startsWith ['!', '-', '-'] (c :: (rest ++ after)) :=
        h.startsWith_eq (List.cons_ne_nil c rest) rfl
      rw [List.cons_append, List.cons_append, opensMarkup, opensMarkup, hdashes]

theorem halts_eq (h : Exchange after other) (hne : read ≠ []) :
    halts (read ++ other) = halts (read ++ after) := by
  have hone : 1 ≤ read.length := List.length_pos_iff.2 hne
  rw [halts, halts, h.startsWith_eq hne rfl, h.startsWith_eq hne rfl, h.startsWith_eq hne rfl,
    List.drop_append_of_le_length hone, List.drop_append_of_le_length hone, h.opensMarkup_eq]

/-- A run of text that ends in `read` ends there again, if braces follow a run up to its end.
-/
theorem textRun_eq (h : Exchange after other)
    (hwidth : (textRun (read ++ after)).length ≤ read.length)
    (hedge : (textRun (read ++ after)).length = read.length →
      startsWith ['\x7b', '\x7b'] after = true) :
    textRun (read ++ other) = textRun (read ++ after) := by
  induction read with
  | nil =>
      obtain hnil := List.eq_nil_of_length_eq_zero (Nat.le_zero.1 hwidth)
      rw [hnil]
      rw [hnil] at hedge
      obtain ⟨tail, htail⟩ := startsWith_iff.1 (h.braces.trans (hedge rfl))
      rw [← htail]
      rfl
  | cons c rest ih =>
      have hhalts : halts (c :: (rest ++ other)) = halts (c :: (rest ++ after)) :=
        h.halts_eq (List.cons_ne_nil c rest)
      have hdouble : startsWith ['\\', '\\', '\x7b', '\x7b'] (c :: (rest ++ other)) =
          startsWith ['\\', '\\', '\x7b', '\x7b'] (c :: (rest ++ after)) :=
        h.startsWith_eq (List.cons_ne_nil c rest) rfl
      rw [List.cons_append, textRun_cons] at hwidth hedge ⊢
      rw [List.cons_append, textRun_cons, hhalts, hdouble]
      split at hwidth
      · rename_i hstop
        rw [if_pos hstop, if_pos hstop]
      · rename_i hstop
        rw [if_neg hstop] at hedge ⊢
        rw [if_neg hstop]
        split at hwidth
        · rename_i hslashes
          rw [if_pos hslashes, if_pos hslashes]
        · rename_i hslashes
          rw [if_neg hslashes] at hedge ⊢
          rw [if_neg hslashes, ih (Nat.le_of_succ_le_succ hwidth) fun hlength =>
            hedge (congrArg Nat.succ hlength)]

/-! ## Expressions that open -/

theorem isElse_of_breaks (h : Breaks after) :
    isElse ('e' :: 'l' :: 's' :: 'e' :: after) = !startsWith ['\x7b'] after := by
  obtain ⟨c, rest, rfl, hc⟩ := h
  rcases isBreak_cases hc with hblank | rfl | rfl | rfl
  · have hbrace : c ≠ '\x7b' := by
      rintro rfl
      cases hblank
    rw [isElse, hblank, Scan.startsWith_eq_false fun more heq => hbrace (List.cons.inj heq).1]
    rfl
  · rfl
  · rfl
  · rfl

/-- An else is one after an exchange too. -/
theorem isElse_eq (h : Exchange after other) : isElse (read ++ other) = isElse (read ++ after) := by
  have hsteady : startsWith ['e', 'l', 's', 'e'] (read ++ other) =
      startsWith ['e', 'l', 's', 'e'] (read ++ after) := h.startsWith_append_eq rfl
  cases hstarts : startsWith ['e', 'l', 's', 'e'] (read ++ after) with
  | false => rw [isElse_eq_false (hsteady.trans hstarts), isElse_eq_false hstarts]
  | true =>
      have hle := length_le_of_startsWith h.after_breaks (forall_of_any_isBreak rfl) hstarts
      obtain ⟨left, rfl⟩ := startsWith_iff.1 (startsWith_of_length_le hle hstarts)
      cases left with
      | nil =>
          have hafter := isElse_of_breaks h.after_breaks
          have hother := isElse_of_breaks h.other_breaks
          rw [h.brace, ← hafter] at hother
          exact hother
      | cons c left => rfl

theorem startsWith_mark_of_blank {cs : List Char} (h : startsBlank cs = true) :
    startsWith ['~'] cs = false := by
  refine Scan.startsWith_eq_false ?_
  rintro more rfl
  cases h

/-- Directly before a blank nothing but an expression opens. -/
theorem opener_of_startsBlank {cs : List Char} (h : startsBlank cs = true) :
    Opener .openCurly .double [] cs := by
  obtain ⟨c, rest, rfl⟩ : ∃ c rest, cs = c :: rest := by
    cases cs with
    | nil => cases h
    | cons c rest => exact ⟨c, rest, rfl⟩
  have hblank : Text.isBlank c = true := h
  refine .plain ?_ ?_
  · rintro d ⟨⟩ hmem
    have hsolid : ['\x7b', '!', '>', '^', '#', '/'].all (fun d => !Text.isBlank d) = true := rfl
    have hother := List.all_eq_true.1 hsolid c hmem
    rw [hblank] at hother
    cases hother
  · refine isElse_eq_false (Scan.startsWith_eq_false ?_)
    rintro more heq
    obtain ⟨rfl, -⟩ := List.cons.inj heq
    cases hblank

/-- What the braces open is the same after an exchange, if a token that ends where the texts
differ is followed by a blank. -/
theorem opener_eq (h : Exchange after other) {kind : Kind} {closer : Closer}
    {more back : List Char} (hopener : Opener kind closer more (back ++ after))
    (hedge : back = [] → kind = .openCurly ∨ kind = .openTriple → startsBlank after = true) :
    Opener kind closer more (back ++ other) := by
  cases hopener with
  | markedTriple => exact .markedTriple _
  | triple hmark =>
      refine .triple ?_
      cases back with
      | cons c back => exact hmark
      | nil => exact startsWith_mark_of_blank (h.blanks.trans (hedge rfl (.inr rfl)))
  | block => exact .block _
  | endBlock => exact .endBlock _
  | otherwise helse =>
      have hsame : isElse (['e', 'l', 's', 'e'] ++ back ++ other) =
        isElse (['e', 'l', 's', 'e'] ++ back ++ after) := h.isElse_eq
      exact .otherwise (hsame.trans helse)
  | plain hhead helse =>
      cases back with
      | nil => exact opener_of_startsBlank (h.blanks.trans (hedge rfl (.inl rfl)))
      | cons c back => exact .plain hhead (h.isElse_eq.trans helse)

/-! ## Steps -/

variable {offset width start : Nat} {outer next : List OpenMode} {kind : Kind} {value : List Char}

/-- Braces that open something within `read` open the same after an exchange. -/
theorem atBraces_eq (h : Exchange after other) {left more rest : List Char} {closer : Closer}
    {modes : List OpenMode} (hbraces : Braces (read ++ after) left (more ++ rest))
    (hopener : Opener kind closer more rest) (hwidth : left.length + 2 + more.length ≤ read.length)
    (hedge : left.length + 2 + more.length = read.length →
      kind = .openCurly ∨ kind = .openTriple → startsBlank after = true) :
    AtBraces offset (read ++ other) modes (.emit kind ('\x7b' :: '\x7b' :: (left ++ more))
      (left.length + 2 + more.length) (⟨.expression closer, offset⟩ :: modes)) := by
  obtain ⟨back, hread, rfl⟩ := hbraces.exists_append hwidth
  have hends : back = [] → kind = .openCurly ∨ kind = .openTriple → startsBlank after = true := by
    rintro rfl
    refine hedge ?_
    rw [hread]
    simp
    omega
  have hmark : startsWith ['~'] (more ++ (back ++ other)) =
      startsWith ['~'] (more ++ (back ++ after)) := by
    rw [← List.append_assoc, ← List.append_assoc]
    cases hmore : more ++ back with
    | cons c rest => rfl
    | nil =>
        -- the token is the braces and their mark alone, so a blank follows it
        obtain ⟨rfl, rfl⟩ := List.append_eq_nil_iff.1 hmore
        have hblank : startsBlank after = true := by
          cases hopener with
          | plain => exact hends rfl (.inl rfl)
        rw [List.nil_append, List.nil_append, startsWith_mark_of_blank hblank,
          startsWith_mark_of_blank (h.blanks.trans hblank)]
  exact .opener (hbraces.exchange hmark) (h.opener_eq hopener hends)

/-- A token within `read` is carried over to the other text. -/
theorem carries (h : Exchange after other) {modes : List OpenMode} (hne : read ≠ [])
    (hwidth : width ≤ read.length) (hedge : width = read.length → Edge kind next after) :
    Carries offset modes read after other (.emit kind value width next) where
  opening start hstart hfalse := by
    have hsteady : ∀ start ∈ openings, isSteady start.tail = true := by decide
    rw [h.startsWith_eq hne (hsteady start hstart)]
    exact hfalse
  noTag := h.startTag?_eq_none hne
  noParams := (h.blockParams?_keeps hne).1
  noClosing := h.closing
  opener := by
    rintro left more rest kind closer hbraces hopener ⟨⟩
    exact h.atBraces_eq hbraces hopener hwidth hedge
  startTag := by
    rintro found ⟨⟩ hfound
    exact h.startTag?_eq hfound hwidth hedge
  text := by
    rintro rfl ⟨⟩
    exact h.textRun_eq hwidth hedge
  quotedText := by
    rintro quote start outer rfl ⟨⟩
    exact h.quotedRun_eq hwidth hedge
  value := by
    rintro name start outer found rfl ⟨⟩ hfound
    exact h.unquotedValue?_eq hfound hwidth hedge
  attributeName := by
    rintro name start outer found rfl ⟨⟩ hfound
    exact h.attributeName?_eq hfound hwidth hedge
  word := by
    rintro closer start outer word found rfl ⟨⟩ hfound
    exact h.wordStep?_eq hne hfound hwidth

/-- A token that ends in `read` is emitted again after an exchange. -/
theorem step_eq (h : Exchange after other) {modes : List OpenMode} {awaitsValue : Bool}
    (hne : read ≠ [])
    (hstep : State.step ⟨offset, read ++ after, modes, awaitsValue⟩ = .emit kind value width next)
    (hwidth : width ≤ read.length) (hedge : width = read.length → Edge kind next after) :
    State.step ⟨offset, read ++ other, modes, awaitsValue⟩ = .emit kind value width next :=
  ((State.takes_of_step hstep).carry hne (h.carries hne hwidth hedge) hwidth).step_eq

/-- Blanks within `read` are the same after an exchange. -/
theorem blanks_eq (h : Exchange after other)
    (hwidth : ((read ++ after).takeWhile Text.isBlank).length ≤ read.length) :
    (read ++ other).takeWhile Text.isBlank = (read ++ after).takeWhile Text.isBlank := by
  refine takeWhile_eq hwidth fun hlength c hc => ?_
  rw [Bool.eq_false_iff]
  intro hblank
  obtain ⟨rest, rfl⟩ := List.head?_eq_some_iff.1 hc
  obtain ⟨d, tail, rfl, -⟩ := h.after_breaks
  have hstarts : Text.isBlank d = true := h.blanks.symm.trans hblank
  -- all of `read` is blank, so with a blank after it the run would go on
  rw [List.takeWhile_append] at hlength
  split at hlength
  · rw [List.takeWhile_cons, if_pos hstarts, List.length_append, List.length_cons] at hlength
    omega
  · exact absurd hlength ‹_›

theorem skip_eq (h : Exchange after other) {modes : List OpenMode} {awaitsValue : Bool}
    (hne : read ≠ []) (hstep : State.step ⟨offset, read ++ after, modes, awaitsValue⟩ = .skip width)
    (hwidth : width ≤ read.length) :
    State.step ⟨offset, read ++ other, modes, awaitsValue⟩ = .skip width := by
  have hrestne : read ++ after ≠ [] := List.append_ne_nil_of_left_ne_nil hne _
  have hmodes : PassesBlanks modes := State.passesBlanks_of_step hstep
  have hpos : 0 < ((read ++ after).takeWhile Text.isBlank).length :=
    State.blanks_of_skip hrestne hstep
  obtain rfl : width = _ := State.eq_of_skip hrestne hstep
  have hsame := h.blanks_eq hwidth
  rw [State.step_of_blanks hmodes (by rwa [hsame]), hsame]

end Exchange

/-! ## Runs -/

/-- A run that reads nothing goes nowhere. -/
theorem Run.eq_of_rest {state final : State} {pieces : List Piece} (h : Run state pieces final)
    (hrest : state.rest.length ≤ final.rest.length) : pieces = [] ∧ final = state := by
  have hshort : ∀ {width : Nat} {modes : List OpenMode} {awaitsValue : Bool} {others : List Piece},
      state.rest ≠ [] → 0 < width → ¬ Run (state.advance width modes awaitsValue) others final := by
    intro width modes awaitsValue others hne hpos hrun
    obtain ⟨read, hread, -⟩ := hrun.exists_read
    have hlength := congrArg List.length hread
    rw [State.advance, List.length_append, List.length_drop] at hlength
    have hrestpos := List.length_pos_iff.2 hne
    omega
  cases h with
  | refl => exact ⟨rfl, rfl⟩
  | emit hne hstep hrun =>
      have hpos := state.step_advances hne
      rw [hstep] at hpos
      exact absurd hrun (hshort hne hpos)
  | skip hne hstep hrun =>
      have hpos := state.step_advances hne
      rw [hstep] at hpos
      exact absurd hrun (hshort hne hpos)

/-- A run is the same after an exchange of what follows it. -/
theorem Run.exchange {state final : State} {pieces : List Piece} (h : Run state pieces final)
    (hexchange : Exchange after other) (hfinal : final.rest = after)
    (hedge : ∀ piece ∈ pieces.getLast?, Edge piece.kind final.modes after)
    (hread : state.rest = read ++ after) :
    Run ⟨state.offset, read ++ other, state.modes, state.awaitsValue⟩ pieces
      ⟨final.offset, other, final.modes, final.awaitsValue⟩ := by
  induction h generalizing read with
  | refl state =>
      obtain ⟨offset, rest, modes, awaitsValue⟩ := state
      obtain rfl : read = [] := by
        obtain rfl : rest = after := hfinal
        exact List.self_eq_append_left.1 hread
      exact .refl _
  | @emit state final kind value width modes pieces hne hstep hrun ih =>
      obtain ⟨hle, hleft⟩ := hrun.width_le (State.width_le_of_emit hne hstep) hread hfinal
      have hpos := state.step_advances hne
      rw [hstep] at hpos
      have hreadne : read ≠ [] := List.ne_nil_of_length_pos (Nat.lt_of_lt_of_le hpos hle)
      -- a token that ends where `read` ends is the last one
      have hlast : width = read.length → Edge kind modes after := by
        intro hwidth
        rw [hwidth, List.drop_length, List.nil_append] at hleft
        obtain ⟨rfl, rfl⟩ := hrun.eq_of_rest (by rw [hwidth, hleft, hfinal])
        exact hedge _ rfl
      obtain ⟨offset, rest, opened, awaitsValue⟩ := state
      obtain rfl : rest = read ++ after := hread
      refine .emit (List.append_ne_nil_of_left_ne_nil hreadne _)
        (hexchange.step_eq hreadne hstep hle hlast) ?_
      rw [State.advance, List.drop_append_of_le_length hle]
      refine ih hfinal (fun piece hpiece => hedge piece ?_) hleft
      rw [List.getLast?_cons, hpiece]
      rfl
  | @skip state final width pieces hne hstep hrun ih =>
      obtain ⟨hle, hleft⟩ := hrun.width_le (State.width_le_of_skip hne hstep) hread hfinal
      have hpos := state.step_advances hne
      rw [hstep] at hpos
      have hreadne : read ≠ [] := List.ne_nil_of_length_pos (Nat.lt_of_lt_of_le hpos hle)
      obtain ⟨offset, rest, opened, awaitsValue⟩ := state
      obtain rfl : rest = read ++ after := hread
      refine .skip (List.append_ne_nil_of_left_ne_nil hreadne _)
        (hexchange.skip_eq hreadne hstep hle) ?_
      rw [State.advance, List.drop_append_of_le_length hle]
      exact ih hfinal hedge hleft

/-- From a state like one of another scan on, the rest of that scan is read. -/
theorem Scanned.of_alike {text : List Char} {front back : List Piece} {state reached final : State}
    (hfront : Run (.initial text) front reached) (halike : state.Alike reached)
    (hback : Run state back final) (hrest : final.rest = []) (hmodes : final.modes = []) :
    ∃ others, Scanned text (front ++ others) ∧
      others.map Piece.reading = back.map Piece.reading := by
  obtain ⟨others, last, hrun, hreading, hlast⟩ := hback.alike halike
  refine ⟨others, ⟨last, hfront.trans hrun, hlast.rest.symm.trans hrest, ?_⟩, hreading⟩
  have hnone := hlast.modes
  rw [hmodes, List.map_nil] at hnone
  exact List.map_eq_nil_iff.1 hnone.symm

/-- A scan at one of its pieces: the run before the piece and the step that emits it. If
another text in place of the piece is read after the same run as a piece of the same kind,
the scan goes on behind it as it did. -/
theorem Scanned.exists_rewriting {text : List Char} {front back : List Piece} {piece : Piece}
    (h : Scanned text (front ++ piece :: back)) :
    ∃ read written rest modes next awaitsValue, text = read ++ (written ++ rest) ∧
      piece.start = read.length ∧ piece.stop = read.length + written.length ∧
      slice text piece.start piece.stop = written ∧ written ++ rest ≠ [] ∧
      Run (.initial text) front ⟨read.length, written ++ rest, modes, awaitsValue⟩ ∧
      State.step ⟨read.length, written ++ rest, modes, awaitsValue⟩ =
        .emit piece.kind piece.value written.length next ∧
      ∀ other value, other ≠ [] →
        Run (.initial (read ++ (other ++ rest))) front
          ⟨read.length, other ++ rest, modes, awaitsValue⟩ →
        State.step ⟨read.length, other ++ rest, modes, awaitsValue⟩ =
          .emit piece.kind value other.length next →
        ∃ others, Scanned (read ++ (other ++ rest))
            (front ++ ⟨piece.kind, value, piece.start, read.length + other.length⟩ :: others) ∧
          others.map Piece.reading = back.map Piece.reading := by
  obtain ⟨final, hrun, hfinal, hclosed⟩ := h
  obtain ⟨middle, width, next, hbefore, hne, hstep, hstart, hstop, hafter⟩ := hrun.exists_step
  obtain ⟨read, hread, hoffset⟩ := hbefore.exists_read
  have hcovers := middle.step_covers hne
  rw [hstep] at hcovers
  obtain ⟨written, rest, hrest, rfl, -⟩ := hcovers
  obtain ⟨offset, cs, modes, awaitsValue⟩ := middle
  obtain rfl : cs = written ++ rest := hrest
  obtain rfl : text = read ++ (written ++ rest) := hread
  obtain rfl : offset = read.length := hoffset.trans (Nat.zero_add _)
  have hslice : slice (read ++ (written ++ rest)) piece.start piece.stop = written := by
    rw [← hstart, ← hstop]
    exact (slice_of_drop_eq List.drop_left).1
  refine ⟨read, written, rest, modes, next, awaitsValue, rfl, hstart.symm, hstop.symm, hslice, hne,
    hbefore, hstep, fun other value hother hsame hemit => ?_⟩
  have hpiece := Run.emit (List.append_ne_nil_of_left_ne_nil hother rest) hemit (.refl _)
  -- behind the piece the two scans are in like states
  have halike : (State.advance ⟨read.length, written ++ rest, modes, awaitsValue⟩ written.length
      next (piece.kind == .equals)).Alike
      (State.advance ⟨read.length, other ++ rest, modes, awaitsValue⟩ other.length next
        (piece.kind == .equals)) := by
    refine ⟨?_, rfl, rfl⟩
    rw [State.advance, State.advance, List.drop_left, List.drop_left]
  obtain ⟨others, hscanned, hreading⟩ :=
    Scanned.of_alike (hsame.trans hpiece) halike hafter hfinal hclosed
  refine ⟨others, ?_, hreading⟩
  rw [← hstart]
  rwa [List.append_assoc] at hscanned

end

end TemplateUsage.Scan
