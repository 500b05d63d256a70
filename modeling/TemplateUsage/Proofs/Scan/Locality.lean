import TemplateUsage.Proofs.Scan.Run
import TemplateUsage.Proofs.Scan.Transfer

set_option autoImplicit false

/-!
# Runs do not depend on what follows

A run that ends in content reads the same pieces when another text follows what it has
read, as long as that text may do so (`Replaces`). A step is the same because
each construct it is inside of, or enters, is closed further on in what the run reads;
text, which nothing closes, is stopped by the token after it. Main statement:
`Run.agree`.
-/

namespace TemplateUsage.Scan

section

variable {read after other : List Char}

/-! ## Expressions -/

/-- What the braces open is settled before the closing braces. -/
theorem Opener.of_mem {kind : Kind} {closer : Closer} {more : List Char}
    (h : Opener kind closer more (read ++ after)) (hbrace : '\x7d' ∈ read) (other : List Char) :
    Opener kind closer more (read ++ other) := by
  have helse (front : List Char) : isElse (front ++ (read ++ other)) =
      isElse (front ++ (read ++ after)) := by
    have hmem : '\x7d' ∈ front ++ read := List.mem_append_right _ hbrace
    rw [← List.append_assoc, ← List.append_assoc, isElse_append other hmem,
      isElse_append after hmem]
  cases h with
  | markedTriple => exact .markedTriple _
  | triple hmark =>
      refine .triple ?_
      rw [startsWith_append_of_mem _ hbrace (by decide)] at hmark ⊢
      exact hmark
  | block => exact .block _
  | endBlock => exact .endBlock _
  | otherwise hfound => exact .otherwise ((helse ['e', 'l', 's', 'e']).trans hfound)
  | plain hhead hnone =>
      refine .plain ?_ ((helse []).trans hnone)
      rw [head?_append_of_mem _ hbrace] at hhead ⊢
      exact hhead

/-- A word before the closing braces is the same whatever may follow, unless it reaches
beyond `read`. -/
theorem wordStep?_of_replaces (hother : Replaces after other) (hbrace : '\x7d' ∈ read)
    (kind : Kind) (found : Found) (h : wordStep? (read ++ after) = some (kind, found))
    (hwidth : found.width ≤ read.length) : wordStep? (read ++ other) = some (kind, found) := by
  refine wordStep?_congr (List.ne_nil_of_mem hbrace) (hother.params read) (fun hplain => ?_) h
    hwidth
  rw [plainWord?_append after hbrace] at hplain
  rw [plainWord?_append other hbrace]
  exact hplain

/-! ## Tags and text -/

/-- An opening tag is a bracket and a name. -/
theorem startTag?_eq_some {cs : List Char} {found : Found} (h : startTag? cs = some found) :
    ∃ c rest, cs = '<' :: c :: rest ∧ startsTagName c = true ∧
      found = ⟨c :: rest.takeWhile isTagNameChar, (rest.takeWhile isTagNameChar).length + 2⟩ := by
  unfold startTag? at h
  split at h
  · rename_i c rest
    split at h
    · cases h
      exact ⟨c, rest, rfl, ‹_›, rfl⟩
    · cases h
  · cases h

/-- The name of a tag that is closed in `read` is the same whatever follows. -/
theorem startTag?_congr {found : Found} (h : startTag? (read ++ after) = some found)
    (hwidth : found.width ≤ read.length) (hclosing : '>' ∈ read.drop found.width) :
    startTag? (read ++ other) = some found := by
  obtain ⟨c, rest, hcs, hname, rfl⟩ := startTag?_eq_some h
  match read, hwidth with
  | first :: second :: left, hwidth =>
      simp only [List.cons_append, List.cons.injEq] at hcs
      obtain ⟨rfl, rfl, rfl⟩ := hcs
      have hmem : '>' ∈ left := List.mem_of_mem_drop hclosing
      rw [List.cons_append, List.cons_append, startTag?.eq_1, if_pos hname,
        takeWhile_append_of_mem other hmem rfl, takeWhile_append_of_mem after hmem rfl]
      rfl

/-- Without an opening tag before, there is none before another text that stops text. -/
theorem startTag?_eq_none (hother : Stops other) (hne : read ≠ [])
    (h : startTag? (read ++ after) = none) : startTag? (read ++ other) = none := by
  cases hfound : startTag? (read ++ other) with
  | none => rfl
  | some found =>
      obtain ⟨c, rest, hcs, hname, -⟩ := startTag?_eq_some hfound
      match read, hne with
      | [first], _ =>
          -- a bracket at the very end: another one follows, and no name starts with it
          rcases hother with rfl | ⟨tail, rfl, -⟩
          · cases hcs
          · simp only [List.cons_append, List.nil_append, List.cons.injEq] at hcs
            obtain ⟨-, rfl, -⟩ := hcs
            cases hname
      | first :: second :: left, _ =>
          simp only [List.cons_append, List.cons.injEq] at hcs
          obtain ⟨rfl, rfl, -⟩ := hcs
          rw [List.cons_append, List.cons_append, startTag?.eq_1, if_pos hname] at h
          cases h

/-- Text stops before an escaped expression, an expression, a comment, a closing tag and an
opening tag, and before nothing else. -/
theorem halts_iff_begins {cs : List Char} :
    halts cs = true ↔
      startsWith ['\\', '\x7b', '\x7b'] cs = true ∨ atCurly cs = true ∨
        startsWith ['<', '!', '-', '-'] cs = true ∨ startsWith ['<', '/'] cs = true ∨
        (startTag? cs).isSome = true := by
  constructor
  · intro hhalts
    rcases halts_iff.1 hhalts with h | h | ⟨h, hopens⟩
    · exact .inl h
    · exact .inr (.inl h)
    · obtain ⟨rest, rfl⟩ := startsWith_iff.1 h
      cases rest with
      | nil => cases hopens
      | cons c rest =>
          have hopens : (startsTagName c || c == '/' ||
            startsWith ['!', '-', '-'] (c :: rest)) = true := hopens
          rw [Bool.or_eq_true, Bool.or_eq_true, or_assoc, beq_iff_eq] at hopens
          rcases hopens with hname | rfl | hdashes
          · have hfound : (startTag? ('<' :: c :: rest)).isSome = true := by
              rw [startTag?.eq_1, if_pos hname]
              rfl
            exact .inr (.inr (.inr (.inr hfound)))
          · exact .inr (.inr (.inr (.inl rfl)))
          · obtain ⟨tail, htail⟩ := startsWith_iff.1 hdashes
            exact .inr (.inr (.inl (startsWith_iff.2 ⟨tail, congrArg ('<' :: ·) htail⟩)))
  · have hmarkup : ∀ {rest : List Char}, cs = '<' :: rest → opensMarkup rest = true →
        halts cs = true := by
      rintro rest rfl hopens
      exact halts_iff.2 (.inr (.inr ⟨rfl, hopens⟩))
    rintro (h | h | h | h | h)
    · exact halts_iff.2 (.inl h)
    · exact halts_iff.2 (.inr (.inl h))
    · obtain ⟨rest, rfl⟩ := startsWith_iff.1 h
      exact hmarkup rfl rfl
    · obtain ⟨rest, rfl⟩ := startsWith_iff.1 h
      exact hmarkup rfl rfl
    · obtain ⟨found, hfound⟩ := Option.isSome_iff_exists.1 h
      obtain ⟨c, rest, rfl, hc, -⟩ := startTag?_eq_some hfound
      refine hmarkup rfl ?_
      rw [opensMarkup, hc]
      rfl

/-- Where nothing else begins, text goes on. -/
theorem State.atText_iff {state : State} :
    state.AtText ∧ startTag? state.rest = none ↔
      state.modes = [] ∧ halts state.rest = false := by
  rw [Bool.eq_false_iff, ne_eq, halts_iff_begins, not_or, not_or, not_or, not_or]
  simp only [Bool.not_eq_true, Option.isSome_eq_false_iff, Option.isNone_iff_eq_none]
  constructor
  · rintro ⟨⟨hmodes, hescape, hcurly, hcomment, hclosing⟩, htag⟩
    exact ⟨hmodes, hescape, hcurly, hcomment, hclosing, htag⟩
  · rintro ⟨hmodes, hescape, hcurly, hcomment, hclosing, htag⟩
    exact ⟨⟨hmodes, hescape, hcurly, hcomment, hclosing⟩, htag⟩

/-! ## Steps -/

variable {offset width : Nat} {modes next : List OpenMode} {kind : Kind} {value : List Char}

/-- Text that is not stopped at once is what content has next. -/
theorem State.step_text (state : State) (hmodes : state.modes = [])
    (hhalts : halts state.rest = false) :
    state.step = .emit .text (textRun state.rest) (textRun state.rest).length state.modes := by
  obtain ⟨htext, htag⟩ := State.atText_iff.2 ⟨hmodes, hhalts⟩
  exact (State.Takes.text htext htag).step_eq

theorem AtBraces.two_le {cs : List Char}
    (h : AtBraces offset cs modes (.emit kind value width next)) : 2 ≤ width := by
  cases h with
  | opener => omega
  | comment => omega

/-- In content, a token that starts where text would stop covers what text would stop at. -/
theorem State.halts_take {state : State} (hmodes : state.modes = [])
    (hhalts : halts state.rest = true) (h : state.step = .emit kind value width next) :
    halts (state.rest.take width) = true := by
  -- a token covers the characters by which its case is chosen, and these halt a text
  have hfront : ∀ start : List Char, start <+: state.rest → start.length ≤ width →
      halts start = true → halts (state.rest.take width) = true := by
    intro start hstart hlength hstops
    obtain ⟨tail, htail⟩ := List.prefix_take_iff.2 ⟨hstart, hlength⟩
    rw [← htail]
    exact halts_append hstops tail
  cases State.takes_of_step h with
  | braces _ hcurly hbraces => exact hfront _ (startsWith_iff.1 hcurly) hbraces.two_le rfl
  | @escape tail _ hrest =>
      exact hfront ['\\', '\x7b', '\x7b'] ⟨tail, hrest.symm⟩
        (Nat.succ_le_succ (two_le_length_escapedRun _ _ _)) rfl
  | @htmlComment tail _ _ _ hrest =>
      exact hfront ['<', '!', '-', '-'] ⟨tail, hrest.symm⟩ (by simp; omega) rfl
  | @endTag tail _ _ hrest hfound =>
      exact hfront ['<', '/'] ⟨tail, hrest.symm⟩ (two_le_of_endTag? hfound) rfl
  | startTag _ hfound =>
      obtain ⟨c, rest, hrest, hname, rfl⟩ := startTag?_eq_some hfound
      have hmarkup : opensMarkup [c] = true := by
        rw [opensMarkup, hname, Bool.true_or, Bool.true_or]
      refine hfront ['<', c] ⟨rest, hrest.symm⟩ (Nat.le_add_left _ _) ?_
      rw [halts_iff]
      exact .inr (.inr ⟨rfl, hmarkup⟩)
  | text htext htag =>
      rw [(State.atText_iff.1 ⟨htext, htag⟩).2] at hhalts
      cases hhalts
  | quoteClose hother | quotedText hother | quoteOpen hother | selfClose hother | tagEnd hother
  | equals hother | closer hother | openParen hother | closeParen hother =>
      cases hmodes.symm.trans hother
  | value hvalue =>
      obtain ⟨_, _, _, hother⟩ := hvalue.modes
      cases hmodes.symm.trans hother
  | tagParams hpart | attributeName hpart =>
      obtain ⟨_, _, hother⟩ := hpart.modes
      cases hmodes.symm.trans hother
  | word hword =>
      obtain ⟨_, _, _, hother, -⟩ := hword.modes
      cases hmodes.symm.trans hother

/-- A token is carried over to any text that may follow: what it opens is closed in `read`,
and text is followed by something that stops it there. -/
theorem Replaces.carries (hother : Replaces after other) (hne : read ≠ [])
    (hclosing : ∀ opened ∈ modes.head?, opened.mode.closing ∈ read) (hwidth : width ≤ read.length)
    (hnext : ∀ opened ∈ next.head?, opened.mode.closing ∈ read.drop width)
    (hstop : next = [] → halts (read.drop width ++ after) = true →
      read.drop width = [] ∨ halts (read.drop width) = true) :
    Carries offset modes read after other (.emit kind value width next) where
  opening start hstart hfalse := by
    have hbracket : ∀ start ∈ openings, '<' ∉ start.tail := by decide
    rw [Bool.eq_false_iff] at hfalse ⊢
    exact startsWith_stops_eq_false hother.stops hne (hbracket start hstart) hfalse
  noTag := startTag?_eq_none hother.stops hne
  noParams := hother.params read
  noClosing := hother.braces
  opener := by
    rintro left more rest kind closer hbraces hopener ⟨⟩
    obtain ⟨back, hread, rfl⟩ := hbraces.exists_append hwidth
    have hbrace : '\x7d' ∈ back := by
      have hclosing := hnext _ rfl
      rwa [hread, List.drop_left' (by simp; omega)] at hclosing
    have hmem : '\x7d' ∈ more ++ back := List.mem_append_right _ hbrace
    have hmark : startsWith ['~'] (more ++ (back ++ other)) =
        startsWith ['~'] (more ++ (back ++ after)) := by
      rw [← List.append_assoc, ← List.append_assoc, startsWith_append_of_mem other hmem (by decide),
        startsWith_append_of_mem after hmem (by decide)]
    exact .opener (hbraces.exchange hmark) (hopener.of_mem hbrace other)
  startTag := by
    rintro found ⟨⟩ hfound
    exact startTag?_congr hfound hwidth (hnext _ rfl)
  text := by
    rintro rfl ⟨⟩
    -- text is closed by nothing: it stops at the end of `read` or at what stops it there
    refine textRun_congr hother.stops rfl hwidth ?_
    have hend := halts_drop_textRun (read ++ after)
    rw [List.drop_append_of_le_length hwidth] at hend
    rcases hend with hnil | hhalts
    · exact .inl (List.append_eq_nil_iff.1 hnil).1
    · exact hstop rfl hhalts
  quotedText := by
    rintro quote start outer rfl -
    have hmem : quote ∈ read := hclosing _ rfl
    rw [quotedRun_append _ hmem, quotedRun_append _ hmem]
  value := by
    rintro name start outer found rfl - hfound
    have hmem : '>' ∈ read := hclosing _ rfl
    rw [unquotedValue?_append _ hmem] at hfound ⊢
    exact hfound
  attributeName := by
    rintro name start outer found rfl - hfound
    have hmem : '>' ∈ read := hclosing _ rfl
    rw [attributeName?_append _ hmem] at hfound ⊢
    exact hfound
  word := by
    rintro closer start outer word found rfl ⟨⟩ hfound
    exact wordStep?_of_replaces hother (hclosing _ rfl) _ _ hfound hwidth

theorem State.step_congr {awaitsValue : Bool} (hother : Replaces after other) (hne : read ≠ [])
    (hclosing : ∀ opened ∈ modes.head?, opened.mode.closing ∈ read)
    (h : State.step ⟨offset, read ++ after, modes, awaitsValue⟩ = .emit kind value width next)
    (hwidth : width ≤ read.length)
    (hnext : ∀ opened ∈ next.head?, opened.mode.closing ∈ read.drop width)
    (hstop : next = [] → halts (read.drop width ++ after) = true →
      read.drop width = [] ∨ halts (read.drop width) = true) :
    State.step ⟨offset, read ++ other, modes, awaitsValue⟩ = .emit kind value width next := by
  have htakes := State.takes_of_step h
  exact (htakes.carry hne (hother.carries hne hclosing hwidth hnext hstop) hwidth).step_eq

/-! ## Runs -/

/-- What is passed over is not empty. -/
theorem State.blanks_of_skip {state : State} (hne : state.rest ≠ [])
    (h : state.step = .skip width) : 0 < (state.rest.takeWhile Text.isBlank).length := by
  cases State.takes_of_step h with
  | braces _ _ hbraces => cases hbraces
  | tagBlanks _ hpos | blanks _ hpos => exact hpos
  | tagOver _ _ hnil | mustacheOver _ hnil => exact absurd hnil hne

/-- Blanks are passed over all at once. -/
theorem State.step_of_blanks {rest : List Char} {awaitsValue : Bool} (hmodes : PassesBlanks modes)
    (hblanks : 0 < (rest.takeWhile Text.isBlank).length) :
    State.step ⟨offset, rest, modes, awaitsValue⟩ =
      .skip (rest.takeWhile Text.isBlank).length := by
  obtain ⟨⟨mode, start⟩, hopened, hmode⟩ := hmodes
  obtain ⟨outer, rfl⟩ : ∃ outer, modes = _ :: outer := List.head?_eq_some_iff.1 hopened
  rcases hmode with ⟨name, rfl⟩ | ⟨closer, rfl⟩
  · exact (State.Takes.tagBlanks rfl hblanks).step_eq
  · exact (State.Takes.blanks rfl hblanks).step_eq

theorem State.eq_of_skip {state : State} (hne : state.rest ≠ []) (h : state.step = .skip width) :
    width = (state.rest.takeWhile Text.isBlank).length := by
  have hstep : state.step = .skip (state.rest.takeWhile Text.isBlank).length :=
    State.step_of_blanks (State.passesBlanks_of_step h) (State.blanks_of_skip hne h)
  rw [h] at hstep
  exact Step.skip.inj hstep

theorem State.skip_congr {awaitsValue : Bool} (hne : read ≠ [])
    (hclosing : ∀ opened ∈ modes.head?, opened.mode.closing ∈ read)
    (h : State.step ⟨offset, read ++ after, modes, awaitsValue⟩ = .skip width) :
    State.step ⟨offset, read ++ other, modes, awaitsValue⟩ = .skip width := by
  have hrestne : read ++ after ≠ [] := List.append_ne_nil_of_left_ne_nil hne _
  have hpos : 0 < ((read ++ after).takeWhile Text.isBlank).length := State.blanks_of_skip hrestne h
  have hmodes : PassesBlanks modes := State.passesBlanks_of_step h
  have hsame : (read ++ other).takeWhile Text.isBlank = (read ++ after).takeWhile Text.isBlank := by
    obtain ⟨opened, hopened, hmode⟩ := hmodes
    have hmem := hclosing opened hopened
    have hblank : Text.isBlank opened.mode.closing = false := by
      rcases hmode with ⟨name, hname⟩ | ⟨closer, hcloser⟩
      · rw [hname]
        rfl
      · rw [hcloser]
        rfl
    rw [takeWhile_append_of_mem _ hmem hblank, takeWhile_append_of_mem _ hmem hblank]
  rw [State.step_of_blanks hmodes (by rwa [hsame]), hsame]
  exact congrArg Step.skip (State.eq_of_skip hrestne h).symm

/-- A run that leaves every construct reads what closes the innermost one. -/
theorem Run.closing_head {state final : State} {pieces : List Piece}
    (h : Run state pieces final) (hfinal : final.modes = [])
    (hread : state.rest = read ++ final.rest) :
    ∀ opened ∈ state.modes.head?, opened.mode.closing ∈ read := by
  intro opened hopened
  obtain ⟨outer, houter⟩ := List.head?_eq_some_iff.1 hopened
  have hmodes : state.modes = [] ++ opened :: outer := houter
  refine h.closing_mem hmodes ?_ hread
  rw [hfinal]
  exact Nat.zero_le _

/-- Where text would stop, a run reads what text would stop at. -/
theorem Run.halts_read {state final : State} {pieces : List Piece} (h : Run state pieces final)
    (hcontent : state.modes = []) (hread : state.rest = read ++ final.rest)
    (hhalts : halts state.rest = true) : read = [] ∨ halts read = true := by
  cases h with
  | refl =>
      left
      have hlength := congrArg List.length hread
      rw [List.length_append] at hlength
      exact List.eq_nil_of_length_eq_zero (by omega)
  | @emit _ _ kind value width modes pieces hne hstep hrun =>
      right
      obtain ⟨hle, -⟩ := hrun.width_le (State.width_le_of_emit hne hstep) hread rfl
      have hfront := State.halts_take hcontent hhalts hstep
      rw [hread, List.take_append_of_le_length hle] at hfront
      have hwhole := halts_append hfront (read.drop width)
      rwa [List.take_append_drop] at hwhole
  | skip hne hstep => exact absurd hstep (State.step_ne_skip hcontent _)

/-- A run that ends in content is the same before any text that may follow in place of the
one that does. -/
theorem Run.agree {state final : State} {pieces : List Piece} (h : Run state pieces final)
    (hother : Replaces final.rest other) (hfinal : final.modes = [])
    (hread : state.rest = read ++ final.rest) :
    Run ⟨state.offset, read ++ other, state.modes, state.awaitsValue⟩ pieces
      ⟨final.offset, other, [], final.awaitsValue⟩ := by
  induction h generalizing read with
  | refl state =>
      obtain ⟨offset, rest, modes, awaitsValue⟩ := state
      obtain rfl : modes = [] := hfinal
      obtain rfl : read = [] := List.self_eq_append_left.1 hread
      exact .refl _
  | @emit state final kind value width modes pieces hne hstep hrun ih =>
      -- the run leaves what is open now and, after the step, what the step has opened
      have hclosing := (Run.emit hne hstep hrun).closing_head hfinal hread
      obtain ⟨hle, hleft⟩ := hrun.width_le (State.width_le_of_emit hne hstep) hread rfl
      have hpos := state.step_advances hne
      rw [hstep] at hpos
      have hreadne : read ≠ [] := List.ne_nil_of_length_pos (Nat.lt_of_lt_of_le hpos hle)
      obtain ⟨offset, rest, opened, awaitsValue⟩ := state
      obtain rfl : rest = read ++ final.rest := hread
      have hsame := State.step_congr hother hreadne hclosing hstep hle
        (hrun.closing_head hfinal hleft) fun hnext hhalts =>
          hrun.halts_read hnext hleft (by rwa [hleft])
      refine .emit (List.append_ne_nil_of_left_ne_nil hreadne _) hsame ?_
      rw [State.advance, List.drop_append_of_le_length hle]
      exact ih hother hfinal hleft
  | @skip state final width pieces hne hstep hrun ih =>
      have hclosing := (Run.skip hne hstep hrun).closing_head hfinal hread
      obtain ⟨hle, hleft⟩ := hrun.width_le (State.width_le_of_skip hne hstep) hread rfl
      have hpos := state.step_advances hne
      rw [hstep] at hpos
      have hreadne : read ≠ [] := List.ne_nil_of_length_pos (Nat.lt_of_lt_of_le hpos hle)
      obtain ⟨offset, rest, opened, awaitsValue⟩ := state
      obtain rfl : rest = read ++ final.rest := hread
      refine .skip (List.append_ne_nil_of_left_ne_nil hreadne _)
        (State.skip_congr hreadne hclosing hstep) ?_
      rw [State.advance, List.drop_append_of_le_length hle]
      exact ih hother hfinal hleft

end

end TemplateUsage.Scan
