import TemplateUsage.Proofs.Scan.Determined
import TemplateUsage.Proofs.Scan.Lookahead

set_option autoImplicit false

/-!
# Tokens before another text

A token that lies in `read` is read from `read ++ other` as it is read from `read ++ after`,
if nothing begins before `other` that does not begin before `after`, and the patterns that go
on as long as they can find the same (`Carries`). The other patterns search for their last
character, which stands in `read`. Main statement: `State.Takes.carry`.
-/

namespace TemplateUsage.Scan

section

variable {read after other : List Char}

/-- What is not longer than `read` and starts the text starts `read`. -/
theorem exists_append_of_length_le {start tail : List Char} (h : read ++ after = start ++ tail)
    (hle : start.length ≤ read.length) : ∃ left, read = start ++ left ∧ tail = left ++ after := by
  obtain ⟨left, rfl⟩ : start <+: read :=
    List.prefix_of_prefix_length_le ⟨tail, h.symm⟩ (List.prefix_append _ _) hle
  rw [List.append_assoc, List.append_right_inj] at h
  exact ⟨left, rfl, h.symm⟩

/-! ## Escaped expressions -/

/-- An escaped expression covers at least its opening braces. -/
theorem two_le_length_escapedRun (a b : Char) (rest : List Char) :
    2 ≤ (escapedRun (a :: b :: rest)).length := by
  rw [escapedRun.eq_1]
  split
  · exact Nat.le_add_left 2 _
  · exact Nat.le_refl 2

/-- An escaped expression that ends in `left` is the same whatever follows, and so is one
that is not closed and does not get closed. -/
theorem escapedRun_congr {left : List Char} {a b : Char}
    (hother : breakAt (stopAt ['\x7d', '\x7d']) (left ++ after) = none →
      breakAt (stopAt ['\x7d', '\x7d']) (left ++ other) = none)
    (hwidth : (escapedRun (a :: b :: (left ++ after))).length ≤ left.length + 2) :
    escapedRun (a :: b :: (left ++ other)) = escapedRun (a :: b :: (left ++ after)) := by
  have hlocal : Local ['\x7d'] _ (breakAt (stopAt ['\x7d', '\x7d'])) :=
    breakAt_local (stopAt_terminates ['\x7d'] '\x7d')
  rw [escapedRun.eq_1] at hwidth ⊢
  rw [escapedRun.eq_1]
  cases hbreak : breakAt (stopAt ['\x7d', '\x7d']) (left ++ after) with
  | none => rw [hother hbreak]
  | some found =>
      obtain ⟨stopped, -, hstop, -⟩ := breakAt_eq_some hbreak
      rw [hbreak] at hwidth
      have hfound : found.1.length + found.2 ≤ left.length := by
        rw [(stopAt_eq_some hstop).1]
        simpa using hwidth
      rw [hlocal.congr hbreak hfound other]

/-! ## Comments in braces -/

/-- What is read holds the braces, their mark and what follows them, as far as it goes. -/
theorem Braces.exists_append {left front rest : List Char}
    (h : Braces (read ++ after) left (front ++ rest))
    (hle : left.length + 2 + front.length ≤ read.length) :
    ∃ back, read = '\x7b' :: '\x7b' :: (left ++ front) ++ back ∧ rest = back ++ after := by
  refine exists_append_of_length_le (by simp [h.text]) ?_
  simp only [List.length_cons, List.length_append]
  omega

/-- Braces have the same mark if it does not depend on what follows. -/
theorem Braces.exchange {left front back : List Char}
    (h : Braces (read ++ after) left (front ++ (back ++ after)))
    (hmark : startsWith ['~'] (front ++ (back ++ other)) =
      startsWith ['~'] (front ++ (back ++ after))) :
    Braces (read ++ other) left (front ++ (back ++ other)) := by
  have hread : read = '\x7b' :: '\x7b' :: (left ++ (front ++ back)) := by
    have htext : read ++ after = '\x7b' :: '\x7b' :: (left ++ (front ++ back)) ++ after := by
      simp [h.text]
    exact List.append_cancel_right htext
  refine ⟨by simp [hread], ?_⟩
  rw [hmark]
  exact h.mark

theorem CurlyComment.terminates {form : CommentForm} {dashes tail : List Char}
    {stop : List Char → Option Nat} (h : CurlyComment form dashes stop tail) :
    Terminates ['\x7d'] stop := by
  cases h with
  | long => exact longCommentEnd?_terminates
  | short => exact shortCommentEnd?_terminates

theorem CurlyComment.of_mem {form : CommentForm} {dashes : List Char}
    {stop : List Char → Option Nat} (h : CurlyComment form dashes stop (read ++ after))
    (hbrace : '\x7d' ∈ read) (other : List Char) :
    CurlyComment form dashes stop (read ++ other) := by
  cases h with
  | long => exact .long _
  | short hshort =>
      refine .short ?_
      rw [startsWith_append_of_mem _ hbrace (by decide)] at hshort ⊢
      exact hshort

/-- A comment in braces that ends in `read` is the same whatever follows. -/
theorem Braces.comment_congr {form : CommentForm} {stop : List Char → Option Nat}
    {left dashes tail value : List Char} {offset width : Nat} {modes : List OpenMode}
    (hbraces : Braces (read ++ after) left ('!' :: (dashes ++ tail)))
    (hcomment : CurlyComment form dashes stop tail)
    (hbreak : breakAt stop tail = some (value, width))
    (hle : left.length + 3 + dashes.length + value.length + width ≤ read.length)
    (other : List Char) :
    AtBraces offset (read ++ other) modes (.emit .curlyComment value
      (left.length + 3 + dashes.length + value.length + width) modes) := by
  have hfront : Braces (read ++ after) left (('!' :: dashes) ++ tail) := hbraces
  have hdashes : ('!' :: dashes).length = dashes.length + 1 := rfl
  obtain ⟨back, hread, rfl⟩ := hfront.exists_append (by omega)
  have hlocal := breakAt_local hcomment.terminates
  have hback : value.length + width ≤ back.length := by
    rw [hread] at hle
    simp only [List.length_cons, List.length_append] at hle
    omega
  obtain ⟨c, hc, hbrace⟩ := hlocal.exists_mem hbreak hback
  obtain rfl := List.mem_singleton.1 hc
  have hmoved : Braces (read ++ other) left (('!' :: dashes) ++ (back ++ other)) :=
    hfront.exchange rfl
  exact .comment hmoved (hcomment.of_mem hbrace other) (hlocal.congr hbreak hback other)

/-! ## Tokens -/

/-- The texts by which the scanner chooses between the constructs of content and of tags. -/
def openings : List (List Char) :=
  [['\\', '\x7b', '\x7b'], ['\x7b', '\x7b'], ['<', '!', '-', '-'], ['<', '/'], ['/', '>']]

/-- What carries a step from `read ++ after` over to `read ++ other`. -/
structure Carries (offset : Nat) (modes : List OpenMode) (read after other : List Char)
    (step : Step) : Prop where
  -- nothing begins that did not begin before
  opening : ∀ start ∈ openings, startsWith start (read ++ after) = false →
    startsWith start (read ++ other) = false
  noTag : startTag? (read ++ after) = none → startTag? (read ++ other) = none
  noParams : blockParams? (read ++ after) = none → blockParams? (read ++ other) = none
  noClosing : ∀ left, breakAt (stopAt ['\x7d', '\x7d']) (left ++ after) = none →
    breakAt (stopAt ['\x7d', '\x7d']) (left ++ other) = none
  -- what is found without its last character in sight is found again
  opener : ∀ {left more rest : List Char} {kind : Kind} {closer : Closer},
    Braces (read ++ after) left (more ++ rest) → Opener kind closer more rest →
    step = .emit kind ('\x7b' :: '\x7b' :: (left ++ more)) (left.length + 2 + more.length)
      (⟨.expression closer, offset⟩ :: modes) →
    AtBraces offset (read ++ other) modes step
  startTag : ∀ {found : Found}, step = .emit .startTag found.value found.width
      (⟨.tag (String.ofList found.value), offset⟩ :: modes) →
    startTag? (read ++ after) = some found → startTag? (read ++ other) = some found
  text : modes = [] →
    step = .emit .text (textRun (read ++ after)) (textRun (read ++ after)).length modes →
    textRun (read ++ other) = textRun (read ++ after)
  quotedText : ∀ {quote : Char} {start : Nat} {outer : List OpenMode},
    modes = ⟨.quoted quote, start⟩ :: outer →
    step = .emit .attributeText (quotedRun quote (read ++ after))
      (quotedRun quote (read ++ after)).length modes →
    quotedRun quote (read ++ other) = quotedRun quote (read ++ after)
  value : ∀ {name : String} {start : Nat} {outer : List OpenMode} {found : Found},
    modes = ⟨.tag name, start⟩ :: outer →
    step = .emit .attributeText found.value found.width modes →
    unquotedValue? (read ++ after) = some found → unquotedValue? (read ++ other) = some found
  attributeName : ∀ {name : String} {start : Nat} {outer : List OpenMode} {found : Found},
    modes = ⟨.tag name, start⟩ :: outer →
    step = .emit .attributeName found.value found.width modes →
    attributeName? (read ++ after) = some found → attributeName? (read ++ other) = some found
  word : ∀ {closer : Closer} {start : Nat} {outer : List OpenMode} {kind : Kind} {found : Found},
    modes = ⟨.expression closer, start⟩ :: outer →
    step = .emit kind found.value found.width modes →
    wordStep? (read ++ after) = some (kind, found) → wordStep? (read ++ other) = some (kind, found)

theorem AtBraces.atCurly {offset : Nat} {cs : List Char} {modes : List OpenMode} {step : Step}
    (h : AtBraces offset cs modes step) : atCurly cs = true := by
  cases h with
  | opener hbraces | comment hbraces | unterminated hbraces | partialCall hbraces
  | caretSection hbraces =>
      rw [hbraces.text]
      rfl

theorem head?_append_eq (hne : read ≠ []) (after other : List Char) :
    (read ++ other).head? = (read ++ after).head? := by
  obtain ⟨c, rest, rfl⟩ := List.exists_cons_of_ne_nil hne
  rfl

theorem exists_cons_of_append {c : Char} {tail : List Char} (hne : read ≠ [])
    (h : read ++ after = c :: tail) : ∃ left, read = c :: left := by
  obtain ⟨d, left, rfl⟩ := List.exists_cons_of_ne_nil hne
  obtain ⟨rfl, -⟩ := List.cons.inj h
  exact ⟨left, rfl⟩

theorem two_le_of_endTag? {cs : List Char} {found : Found} (h : endTag? cs = some found) :
    2 ≤ found.width := by
  unfold endTag? at h
  split at h
  · dsimp only at h
    split at h
    · split at h
      · cases h
      · cases h
        dsimp only
        omega
    · cases h
  · cases h

theorem closer?_eq_none {c : Char} (hbrace : c ≠ '\x7d') (hmark : c ≠ '~') (closer : Closer)
    (rest : List Char) : closer? closer (c :: rest) = none := by
  cases closer <;> simp [closer?, hbrace, hmark]

/-- No word of an expression starts with what closes it. -/
theorem wordStep?_eq_none {c : Char} (h : c = '\x7d' ∨ c = '~') (rest : List Char) :
    wordStep? (c :: rest) = none := by
  rcases h with rfl | rfl
  · rfl
  · rfl

variable {offset : Nat} {modes : List OpenMode} {awaitsValue : Bool} {step : Step}

/-- Where no markup begins, none begins before the other text. -/
theorem Carries.atText (h : Carries offset modes read after other step)
    (htext : State.AtText ⟨offset, read ++ after, modes, awaitsValue⟩) :
    State.AtText ⟨offset, read ++ other, modes, awaitsValue⟩ where
  modes := htext.modes
  escape := h.opening _ (by decide) htext.escape
  braces := h.opening _ (by decide) htext.braces
  comment := h.opening _ (by decide) htext.comment
  closing := h.opening _ (by decide) htext.closing

theorem Carries.atValue (h : Carries offset modes read after other step) (hne : read ≠ [])
    (hvalue : State.AtValue ⟨offset, read ++ after, modes, awaitsValue⟩) :
    State.AtValue ⟨offset, read ++ other, modes, awaitsValue⟩ where
  modes := hvalue.modes
  awaitsValue := hvalue.awaitsValue
  head := by
    rw [head?_append_eq hne after]
    exact hvalue.head
  braces := h.opening _ (by decide) hvalue.braces

theorem Carries.atPart (h : Carries offset modes read after other step) (hne : read ≠ [])
    {name : String} (hpart : State.AtPart ⟨offset, read ++ after, modes, awaitsValue⟩ name) :
    State.AtPart ⟨offset, read ++ other, modes, awaitsValue⟩ name where
  modes := hpart.modes
  awaitsValue := hpart.awaitsValue
  head := by
    rw [head?_append_eq hne after]
    exact hpart.head
  closing := h.opening _ (by decide) hpart.closing
  braces := h.opening _ (by decide) hpart.braces

/-- A word starts with neither character of a closer, so no text after it makes it one. -/
theorem State.AtWord.carry (hne : read ≠ []) {c : Char} {word : Kind × Found}
    (hword : State.AtWord ⟨offset, read ++ after, modes, awaitsValue⟩ c)
    (hfound : wordStep? (read ++ after) = some word) :
    State.AtWord ⟨offset, read ++ other, modes, awaitsValue⟩ c := by
  obtain ⟨⟨closer, start, outer, hmodes, -⟩, hhead, hsolid, hparen⟩ := hword
  have hhead' : (read ++ other).head? = some c := (head?_append_eq hne after other).trans hhead
  refine ⟨⟨closer, start, outer, hmodes, ?_⟩, hhead', hsolid, hparen⟩
  obtain ⟨tail, htail : read ++ after = c :: tail⟩ := List.head?_eq_some_iff.1 hhead
  obtain ⟨tail', htail'⟩ := List.head?_eq_some_iff.1 hhead'
  show closer? closer (read ++ other) = none
  rw [htail']
  refine closer?_eq_none ?_ ?_ closer tail'
  -- a word was found here, and neither character begins one
  · rintro rfl
    rw [htail, wordStep?_eq_none (.inl rfl)] at hfound
    cases hfound
  · rintro rfl
    rw [htail, wordStep?_eq_none (.inr rfl)] at hfound
    cases hfound

variable {kind : Kind} {value : List Char} {width : Nat} {next : List OpenMode}

/-- A token that is read within `read` is read in the same way before the other text. -/
theorem State.Takes.carry (hne : read ≠ [])
    (h : State.Takes ⟨offset, read ++ after, modes, awaitsValue⟩ (.emit kind value width next))
    (hcarries : Carries offset modes read after other (.emit kind value width next))
    (hwidth : width ≤ read.length) :
    State.Takes ⟨offset, read ++ other, modes, awaitsValue⟩ (.emit kind value width next) := by
  cases h with
  | braces hallows _ hbraces =>
      have hsame : AtBraces offset (read ++ other) modes (.emit kind value width next) := by
        cases hbraces with
        | opener hbraces hopener => exact hcarries.opener hbraces hopener rfl
        | comment hbraces hcomment hbreak =>
            exact hbraces.comment_congr hcomment hbreak hwidth other
      exact .braces hallows hsame.atCurly hsame
  | @escape tail hmodes hrest =>
      -- the only token that may go on to the end of the text
      have hrest : read ++ after = ['\\', '\x7b', '\x7b'] ++ tail := hrest
      obtain ⟨left, rfl, rfl⟩ := exists_append_of_length_le hrest
        ((Nat.succ_le_succ (two_le_length_escapedRun _ _ _)).trans hwidth)
      rw [← escapedRun_congr (hcarries.noClosing left) (Nat.le_of_succ_le_succ hwidth)]
      exact .escape hmodes rfl
  | @htmlComment tail value width hmodes hrest hbreak =>
      have hrest : read ++ after = ['<', '!', '-', '-'] ++ tail := hrest
      obtain ⟨left, rfl, rfl⟩ := exists_append_of_length_le hrest (by simp; omega)
      have hlocal : Local ['>'] _ (breakAt (stopAt ['-', '-', '>'])) :=
        breakAt_local (stopAt_terminates ['-', '-'] '>')
      refine .htmlComment hmodes rfl (hlocal.congr hbreak ?_ other)
      simp at hwidth ⊢
      omega
  | @endTag tail _ hmodes hrest hfound =>
      have hrest : read ++ after = ['<', '/'] ++ tail := hrest
      have hsame := endTag?_local.congr hfound hwidth other
      obtain ⟨left, rfl, -⟩ := exists_append_of_length_le hrest
        ((two_le_of_endTag? hfound).trans hwidth)
      exact .endTag hmodes rfl hsame
  | startTag htext hfound =>
      exact .startTag (hcarries.atText htext) (hcarries.startTag rfl hfound)
  | text htext htag =>
      -- texts, values and words go on as long as they can
      have hrun := hcarries.text htext.modes rfl
      dsimp only
      rw [← hrun]
      exact .text (hcarries.atText htext) (hcarries.noTag htag)
  | quoteClose hmodes hrest =>
      obtain ⟨left, rfl⟩ := exists_cons_of_append hne hrest
      exact .quoteClose hmodes rfl
  | @quotedText quote _ _ hmodes hquote hbraces =>
      have hone : [quote].length ≤ read.length := List.length_pos_iff.2 hne
      have hrun := hcarries.quotedText hmodes rfl
      dsimp only at hquote ⊢
      rw [← hrun]
      refine .quotedText hmodes ?_ (hcarries.opening _ (by decide) hbraces)
      show startsWith _ (read ++ other) = false
      rw [startsWith_append_of_length_le _ hone] at hquote ⊢
      exact hquote
  | quoteOpen hmodes hawaits hquote hrest =>
      obtain ⟨left, rfl⟩ := exists_cons_of_append hne hrest
      exact .quoteOpen hmodes hawaits hquote rfl
  | value hvalue hfound =>
      obtain ⟨name, start, outer, hmodes⟩ := hvalue.modes
      exact .value (hcarries.atValue hne hvalue) (hcarries.value hmodes rfl hfound)
  | @selfClose _ _ _ tail hmodes hawaits hrest =>
      have hrest : read ++ after = ['/', '>'] ++ tail := hrest
      obtain ⟨left, rfl, -⟩ := exists_append_of_length_le hrest hwidth
      exact .selfClose hmodes hawaits rfl
  | tagEnd hmodes hawaits hrest =>
      obtain ⟨left, rfl⟩ := exists_cons_of_append hne hrest
      exact .tagEnd hmodes hawaits rfl
  | equals hmodes hawaits hrest =>
      obtain ⟨left, rfl⟩ := exists_cons_of_append hne hrest
      exact .equals hmodes hawaits rfl
  | tagParams hpart hfound =>
      -- the bar at the end of the names is in `read`
      exact .tagParams (hcarries.atPart hne hpart) (blockParams?_local.congr hfound hwidth other)
  | attributeName hpart hparams hfound =>
      obtain ⟨start, outer, hmodes⟩ := hpart.modes
      exact .attributeName (hcarries.atPart hne hpart) (hcarries.noParams hparams)
        (hcarries.attributeName hmodes rfl hfound)
  | @closer closer _ _ _ hmodes hfound =>
      exact .closer hmodes ((closer?_local closer).congr hfound hwidth other)
  | openParen hmodes hrest =>
      obtain ⟨left, rfl⟩ := exists_cons_of_append hne hrest
      exact .openParen hmodes rfl
  | closeParen hmodes hrest =>
      obtain ⟨left, rfl⟩ := exists_cons_of_append hne hrest
      exact .closeParen hmodes rfl
  | word hword hfound =>
      obtain ⟨closer, start, outer, hmodes, -⟩ := hword.modes
      exact .word (hword.carry hne hfound) (hcarries.word hmodes rfl hfound)

end

end TemplateUsage.Scan
