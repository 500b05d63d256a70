import Mathlib.Data.List.TakeWhile
import TemplateUsage.Proofs.Scan.Written
import TemplateUsage.Scan.Progress

set_option autoImplicit false

/-!
# What a step of the scanner covers

Every step that emits a token covers a slice at the front of the text in which
the token is written, and every step that emits none covers blanks. Each pattern
has its own lemma; `State.step_covers` puts them together.
-/

namespace TemplateUsage.Scan

/-- A text starts with `width` characters in which a token is written. -/
def Covers (kind : Kind) (value : List Char) (width : Nat) (cs : List Char) : Prop :=
  ∃ slice rest, cs = slice ++ rest ∧ slice.length = width ∧ Written kind value slice

/-- A pattern's result covers the token it found. -/
def Found.Covers (kind : Kind) (found : Found) (cs : List Char) : Prop :=
  Scan.Covers kind found.value found.width cs

/-- A pattern that takes a start of the text as it is covers that start. -/
theorem covers_whole {kind : Kind} {value cs : List Char} (hkind : Written kind value value)
    (hstart : value <+: cs) : (Found.whole value).Covers kind cs := by
  obtain ⟨rest, rfl⟩ := hstart
  exact ⟨value, rest, rfl, rfl, hkind⟩

/-- The text before the first stop: no suffix that starts in it is a stop. -/
theorem breakAt_eq_some {stop : List Char → Option Nat} {cs before : List Char} {width : Nat}
    (h : breakAt stop cs = some (before, width)) :
    ∃ after, cs = before ++ after ∧ stop after = some width ∧
      ∀ left c right, before = left ++ c :: right → stop (c :: right ++ after) = none := by
  induction cs generalizing before with
  | nil =>
      obtain ⟨w, hstop, heq⟩ := Option.map_eq_some_iff.1 h
      cases heq
      exact ⟨[], rfl, hstop, fun left c right hsplit => by simp at hsplit⟩
  | cons c rest ih =>
      unfold breakAt at h
      split at h
      · rename_i w hstop
        cases h
        exact ⟨c :: rest, rfl, hstop, fun left c right hsplit => by simp at hsplit⟩
      · rename_i hnone
        obtain ⟨found, hfound, heq⟩ := Option.map_eq_some_iff.1 h
        cases heq
        obtain ⟨after, rfl, hafter, hfirst⟩ := ih hfound
        refine ⟨after, rfl, hafter, fun left d right hsplit => ?_⟩
        -- a suffix starts at this character or in what the recursion went over
        cases left with
        | nil =>
            cases hsplit
            exact hnone
        | cons _ left =>
            rw [List.cons_append, List.cons.injEq] at hsplit
            exact hfirst left d right hsplit.2

/-- A fixed stop is found only where the text starts with it. -/
theorem stopAt_eq_some {stop cs : List Char} {width : Nat} (h : stopAt stop cs = some width) :
    width = stop.length ∧ ∃ rest, cs = stop ++ rest := by
  unfold stopAt at h
  split at h
  · rename_i hstart
    cases h
    obtain ⟨rest, rfl⟩ := startsWith_iff.1 hstart
    exact ⟨rfl, rest, rfl⟩
  · cases h

/-- The longest run of characters of one sort and the rest of the text. -/
theorem exists_run_append (p : Char → Bool) (cs : List Char) :
    ∃ run rest, cs.takeWhile p = run ∧ cs.dropWhile p = rest ∧ cs = run ++ rest ∧
      ∀ c ∈ run, p c = true :=
  ⟨_, _, rfl, rfl, List.takeWhile_append_dropWhile.symm, fun _ hc => List.mem_takeWhile_imp hc⟩

/-! ## Content -/

/-- A start tag covers the angle bracket and its name. -/
theorem startTag?_covers {cs : List Char} {found : Found} (h : startTag? cs = some found) :
    found.Covers .startTag cs := by
  unfold startTag? at h
  split at h
  · rename_i c rest
    split at h
    · cases h
      refine ⟨'<' :: c :: rest.takeWhile isTagNameChar, rest.dropWhile isTagNameChar, ?_, rfl, rfl⟩
      simp [List.takeWhile_append_dropWhile]
    · cases h
  · cases h

/-- An end tag covers its brackets, the name and the blanks around it. -/
theorem endTag?_covers {cs : List Char} {found : Found} (h : endTag? cs = some found) :
    found.Covers .endTag cs := by
  unfold endTag? at h
  split at h
  · rename_i inner
    dsimp only at h
    -- the text splits into blanks, name, blanks and the closing bracket
    obtain ⟨before, named, hb, hr, rfl, hbefore⟩ := exists_run_append Text.isBlank inner
    rw [hb, hr] at h
    obtain ⟨name, ending, hn, he, rfl, hname⟩ := exists_run_append isEndNameChar named
    rw [hn, he] at h
    obtain ⟨after, closing, ha, hc, rfl, hafter⟩ := exists_run_append Text.isBlank ending
    rw [ha, hc] at h
    split at h
    · rename_i rest
      split at h
      · cases h
      · rename_i hne
        cases h
        rw [List.isEmpty_iff] at hne
        refine ⟨['<', '/'] ++ before ++ name ++ after ++ ['>'], rest, ?_, ?_, before, after,
          hbefore, hafter, hne, hname, rfl⟩
        · simp
        · simp only [List.length_append, List.length_cons, List.length_nil]
    · cases h
  · cases h

theorem textRun_isPrefix (cs : List Char) : textRun cs <+: cs := by
  fun_induction textRun cs with
  | case1 => exact List.nil_prefix
  | case2 rest => exact ⟨'\x7b' :: '\x7b' :: rest, rfl⟩
  | case3 => exact List.nil_prefix
  | case4 => exact List.nil_prefix
  | case5 => exact List.nil_prefix
  | case6 c rest _ _ _ _ ih => exact (List.prefix_cons_inj c).2 ih

theorem escapedRun_isPrefix (cs : List Char) : escapedRun cs <+: cs := by
  unfold escapedRun
  split
  · rename_i a b rest
    split
    · rename_i body width hbreak
      obtain ⟨after, rfl, hstop, -⟩ := breakAt_eq_some hbreak
      obtain ⟨-, tail, rfl⟩ := stopAt_eq_some hstop
      exact ⟨tail, by simp⟩
    · exact ⟨rest, rfl⟩
  · exact List.prefix_rfl

/-- An escaped expression is read as its text from the braces on. -/
theorem braces_isPrefix_escapedRun (tail : List Char) :
    ['\x7b', '\x7b'] <+: escapedRun ('\x7b' :: '\x7b' :: tail) := by
  rw [escapedRun.eq_1]
  split
  · rename_i body width _
    exact ⟨body ++ ['\x7d', '\x7d'], rfl⟩
  · exact List.prefix_refl _

/-! ## Opening tags -/

theorem attributeName?_covers {cs : List Char} {found : Found}
    (h : attributeName? cs = some found) : found.Covers .attributeName cs := by
  unfold attributeName? at h
  split at h
  · cases h
  · cases h
    refine covers_whole rfl ?_
    exact List.takeWhile_prefix _

theorem unquotedRun_isPrefix (cs : List Char) : unquotedRun cs <+: cs := by
  fun_induction unquotedRun cs with
  | case1 => exact List.nil_prefix
  | case2 => exact List.nil_prefix
  | case3 rest _ ih => exact (List.prefix_cons_inj '/').2 ih
  | case4 c rest _ _ ih => exact (List.prefix_cons_inj c).2 ih
  | case5 => exact List.nil_prefix

theorem unquotedValue?_covers {cs : List Char} {found : Found}
    (h : unquotedValue? cs = some found) : found.Covers .attributeText cs := by
  unfold unquotedValue? at h
  split at h
  · cases h
  · cases h
    exact covers_whole rfl (unquotedRun_isPrefix cs)

theorem quotedRun_isPrefix (quote : Char) (cs : List Char) : quotedRun quote cs <+: cs := by
  fun_induction quotedRun quote cs with
  | case1 => exact List.nil_prefix
  | case2 => exact List.nil_prefix
  | case3 c rest _ ih => exact (List.prefix_cons_inj c).2 ih

/-- Block parameters cover the word `as`, the bars and the blanks between. -/
theorem blockParams?_covers {cs : List Char} {found : Found} (h : blockParams? cs = some found) :
    found.Covers .blockParams cs := by
  unfold blockParams? at h
  split at h
  · rename_i inner
    dsimp only at h
    obtain ⟨blanks, bar, hb, hr, rfl, hblanks⟩ := exists_run_append Text.isBlank inner
    rw [hb, hr] at h
    split at h
    · rename_i inner
      split at h
      · cases h
      · rename_i hne
        rw [List.isEmpty_iff] at hne
        obtain ⟨names, ending, hn, he, rfl, -⟩ := exists_run_append (· != '|') inner
        rw [hn, he] at h
        split at h
        · rename_i rest
          cases h
          refine ⟨['a', 's'] ++ blanks ++ '|' :: names ++ ['|'], rest, by simp, ?_, blanks, hne,
            hblanks, rfl⟩
          simp only [List.length_append, List.length_cons, List.length_nil]
          omega
        · cases h
    · cases h
  · cases h

/-! ## Curly expressions -/

theorem closer?_covers {closer : Closer} {cs : List Char} {found : Found} {kind : Kind}
    (hkind : ∀ value, Written kind value value) (h : closer? closer cs = some found) :
    found.Covers kind cs := by
  unfold closer? at h
  split at h <;> cases h <;> exact covers_whole (hkind _) ⟨_, rfl⟩

/-- The body of a string goes up to a closing quote. -/
theorem stringBody?_eq_some {quote : Char} {cs body : List Char}
    (h : stringBody? quote cs = some body) : ∃ rest, cs = body ++ quote :: rest := by
  fun_induction stringBody? quote cs generalizing body with
  | case1 => cases h
  | case2 c rest ih =>
      obtain ⟨inner, hinner, rfl⟩ := Option.map_eq_some_iff.1 h
      obtain ⟨tail, rfl⟩ := ih hinner
      exact ⟨tail, rfl⟩
  | case3 rest _ =>
      cases h
      exact ⟨rest, rfl⟩
  | case4 => cases h
  | case5 c rest _ _ _ ih =>
      obtain ⟨inner, hinner, rfl⟩ := Option.map_eq_some_iff.1 h
      obtain ⟨tail, rfl⟩ := ih hinner
      exact ⟨tail, rfl⟩

theorem string?_covers {cs : List Char} {found : Found} (h : string? cs = some found) :
    found.Covers .string cs := by
  unfold string? at h
  split at h
  · rename_i quote rest
    split at h
    · rename_i hquote
      obtain ⟨body, hbody, rfl⟩ := Option.map_eq_some_iff.1 h
      obtain ⟨tail, rfl⟩ := stringBody?_eq_some hbody
      refine ⟨quote :: body ++ [quote], tail, by simp, by simp, quote, by simpa using hquote, rfl⟩
    · cases h
  · cases h

/-- A key covers its equals sign, which its value leaves out. -/
theorem hashKey?_covers {cs : List Char} {found : Found} (h : hashKey? cs = some found) :
    found.Covers .hashKey cs := by
  unfold hashKey? at h
  dsimp only at h
  obtain ⟨key, after, hk, ha, rfl, hkey⟩ := exists_run_append isKeyChar cs
  rw [hk, ha] at h
  obtain ⟨blanks, ending, hb, he, rfl, hblanks⟩ := exists_run_append Text.isBlank after
  rw [hb, he] at h
  split at h
  · rename_i rest
    split at h
    · cases h
    · cases h
      exact ⟨key ++ blanks ++ ['='], rest, by simp, by simp [Nat.add_assoc], blanks, hblanks, hkey,
        rfl⟩
  · cases h

theorem decimalRun_isPrefix (cs : List Char) : decimalRun cs <+: cs := by
  obtain ⟨whole, ending, hw, he, rfl, -⟩ := exists_run_append Text.isDigit cs
  unfold decimalRun
  rw [hw, he]
  dsimp only
  split
  · rename_i rest
    split
    · exact ⟨_, rfl⟩
    · obtain ⟨fraction, tail, hf, -, rfl, -⟩ := exists_run_append Text.isDigit rest
      rw [hf]
      exact ⟨tail, by simp⟩
  · exact ⟨ending, rfl⟩

/-- A sign is a start of the text. -/
theorem signRun_append_drop (cs : List Char) : signRun cs ++ cs.drop (signRun cs).length = cs := by
  cases cs with
  | nil => rfl
  | cons c rest => by_cases hc : c = '-' <;> simp [signRun, hc]

theorem number?_covers {cs : List Char} {found : Found} (h : number? cs = some found) :
    found.Covers .number cs := by
  unfold number? at h
  dsimp only at h
  split at h
  · cases h
    refine covers_whole rfl ?_
    have hdigits := decimalRun_isPrefix (cs.drop (signRun cs).length)
    have hvalue := (List.prefix_append_right_inj (signRun cs)).2 hdigits
    rwa [signRun_append_drop] at hvalue
  · cases h

theorem word?_covers {word cs : List Char} {found : Found} {kind : Kind}
    (hkind : ∀ value, Written kind value value) (h : word? word cs = some found) :
    found.Covers kind cs := by
  unfold word? at h
  split at h
  · rename_i hword
    rw [Bool.and_eq_true] at hword
    cases h
    exact covers_whole (hkind _) (startsWith_iff.1 hword.1)
  · cases h

theorem path?_covers {cs : List Char} {found : Found} (h : path? cs = some found) :
    found.Covers .path cs := by
  unfold path? at h
  split at h
  · cases h
  · cases h
    refine covers_whole rfl ?_
    exact List.takeWhile_prefix _

/-! ## Steps -/

/-- What a step covers at the front of a text. -/
def Step.Covers (cs : List Char) : Step → Prop
  | .emit kind value width _ => Scan.Covers kind value width cs
  | .skip width => ∃ blanks rest, cs = blanks ++ rest ∧ blanks.length = width ∧ Blanks blanks
  | .fail _ _ => True

/-- A value between delimiters. -/
theorem covers_delimited {kind : Kind} {value opening closing cs : List Char} (rest : List Char)
    (htext : cs = opening ++ (value ++ (closing ++ rest)))
    (hwritten : Written kind value (opening ++ value ++ closing)) :
    Covers kind value (opening.length + value.length + closing.length) cs := by
  refine ⟨opening ++ value ++ closing, rest, ?_, ?_, hwritten⟩
  · simp only [htext, List.append_assoc]
  · simp only [List.length_append]

theorem longCommentEnd?_eq_some {cs : List Char} {width : Nat}
    (h : longCommentEnd? cs = some width) :
    ∃ mark rest, Mark mark ∧ cs = ['-', '-'] ++ mark ++ ['\x7d', '\x7d'] ++ rest ∧
      (['-', '-'] ++ mark ++ ['\x7d', '\x7d']).length = width := by
  unfold longCommentEnd? at h
  split at h
  · cases h
    exact ⟨[], _, .inl rfl, rfl, rfl⟩
  · cases h
    exact ⟨['~'], _, .inr rfl, rfl, rfl⟩
  · cases h

theorem shortCommentEnd?_eq_some {cs : List Char} {width : Nat}
    (h : shortCommentEnd? cs = some width) :
    ∃ mark rest, Mark mark ∧ cs = mark ++ ['\x7d', '\x7d'] ++ rest ∧
      (mark ++ ['\x7d', '\x7d']).length = width := by
  unfold shortCommentEnd? at h
  split at h
  · cases h
    exact ⟨[], _, .inl rfl, rfl, rfl⟩
  · cases h
    exact ⟨['~'], _, .inr rfl, rfl, rfl⟩
  · cases h

theorem Braces.isMark {cs left inner : List Char} (h : Braces cs left inner) : Mark left := by
  rcases h.mark with rfl | ⟨rfl, -⟩
  · exact .inr rfl
  · exact .inl rfl

/-- A comment in braces covers its opening, its value and what first stops it. -/
theorem CurlyComment.covers {form : CommentForm} {stop : List Char → Option Nat}
    {cs left dashes tail value : List Char} {width : Nat}
    (h : CurlyComment form dashes stop tail) (hbraces : Braces cs left ('!' :: (dashes ++ tail)))
    (hbreak : breakAt stop tail = some (value, width)) :
    Covers .curlyComment value (left.length + 3 + dashes.length + value.length + width) cs := by
  obtain ⟨after, rfl, hstop, hfirst⟩ := breakAt_eq_some hbreak
  have hopening : left.length + 3 + dashes.length =
      (['\x7b', '\x7b'] ++ left ++ '!' :: dashes).length := by
    simp only [List.length_append, List.length_cons, List.length_nil]
    omega
  rw [hopening]
  cases h with
  | long =>
      obtain ⟨right, rest, hright, rfl, rfl⟩ := longCommentEnd?_eq_some hstop
      refine covers_delimited rest ?_ ⟨left, right, hbraces.isMark, hright, .inr ?_⟩
      · simp only [hbraces.text, List.append_assoc, List.cons_append, List.nil_append]
      · simp only [List.append_assoc]
  | short hshort =>
      obtain ⟨right, rest, hright, rfl, rfl⟩ := shortCommentEnd?_eq_some hstop
      refine covers_delimited rest ?_ ⟨left, right, hbraces.isMark, hright, .inl ⟨?_, ?_, ?_⟩⟩
      · simp only [hbraces.text, List.append_assoc, List.cons_append, List.nil_append]
      · simp only [List.append_assoc, List.cons_append, List.nil_append]
      · intro hdashes
        exact Bool.false_ne_true (hshort.symm.trans
          (startsWith_iff.2 (hdashes.trans (List.prefix_append _ _))))
      · -- with a mark at its end the value would have stopped before the mark
        rintro rfl hlast
        obtain ⟨before, rfl⟩ := List.getLast?_eq_some_iff.1 hlast
        have hnone := hfirst before '~' [] rfl
        simp [shortCommentEnd?] at hnone

/-- What braces open covers the braces, mark and all. -/
theorem AtBraces.covers {offset : Nat} {cs : List Char} {modes : List OpenMode} {step : Step}
    (h : AtBraces offset cs modes step) : step.Covers cs := by
  cases h with
  | @opener left more rest kind closer hbraces hopener =>
      refine ⟨'\x7b' :: '\x7b' :: (left ++ more), rest, ?_, ?_, ?_⟩
      · simp only [hbraces.text, List.append_assoc, List.cons_append]
      · simp only [List.length_append, List.length_cons]
        omega
      · cases hopener <;> rfl
  | comment hbraces hcomment hbreak => exact hcomment.covers hbraces hbreak
  | _ => trivial

/-- The backslash of an escape is covered, but it is not part of the value. -/
theorem escapedRun_covers (tail : List Char) :
    Covers .text (escapedRun ('\x7b' :: '\x7b' :: tail))
      ((escapedRun ('\x7b' :: '\x7b' :: tail)).length + 1) ('\\' :: '\x7b' :: '\x7b' :: tail) := by
  obtain ⟨rest, hrest⟩ := escapedRun_isPrefix ('\x7b' :: '\x7b' :: tail)
  exact ⟨'\\' :: escapedRun ('\x7b' :: '\x7b' :: tail), rest,
    congrArg ('\\' :: ·) hrest.symm, rfl, .inr ⟨rfl, braces_isPrefix_escapedRun tail⟩⟩

/-- A word covers what it is written with, whatever its kind. -/
theorem Word.covers {cs : List Char} {kind : Kind} {found : Found} (h : Word cs kind found) :
    found.Covers kind cs := by
  cases h with
  | params h => exact blockParams?_covers h
  | string h => exact string?_covers h
  | key h => exact hashKey?_covers h
  | number h => exact number?_covers h
  | keyword hmem h =>
      -- each of the keywords is written as it is
      refine word?_covers (fun _ => ?_) h
      rcases (mem_keywords hmem).2 with rfl | rfl | rfl <;> rfl
  | path h => exact path?_covers h

theorem skip_covers (cs : List Char) :
    (Step.skip (cs.takeWhile Text.isBlank).length).Covers cs :=
  ⟨_, _, List.takeWhile_append_dropWhile.symm, rfl, fun _ hc => List.mem_takeWhile_imp hc⟩

/-- A step covers the token it emits, or blanks, at the front of the text. -/
theorem State.step_covers (state : State) (hne : state.rest ≠ []) :
    state.step.Covers state.rest := by
  have htakes := state.takes_step
  generalize state.step = step at htakes
  cases htakes with
  | braces _ _ hbraces => exact hbraces.covers
  | escape _ hrest =>
      rw [hrest]
      exact escapedRun_covers _
  | @htmlComment tail value width _ hrest hbreak =>
      obtain ⟨after, rfl, hstop, -⟩ := breakAt_eq_some hbreak
      obtain ⟨rfl, rest, rfl⟩ := stopAt_eq_some hstop
      have hslice : Written .htmlComment value (['<', '!', '-', '-'] ++ value ++ ['-', '-', '>']) :=
        rfl
      exact covers_delimited rest hrest hslice
  | endTag _ _ hfound => exact endTag?_covers hfound
  | startTag _ hfound => exact startTag?_covers hfound
  | text htext =>
      -- a run of text is its own value, and it does not begin as an escape does
      have hrun := textRun_isPrefix state.rest
      refine covers_whole (.inl ⟨rfl, fun hstart => ?_⟩) hrun
      exact Bool.false_ne_true
        (htext.escape.symm.trans (startsWith_iff.2 (hstart.trans hrun)))
  | quotedText => exact covers_whole rfl (quotedRun_isPrefix _ state.rest)
  | tagBlanks | blanks => exact skip_covers state.rest
  | tagOver _ _ hnil | mustacheOver _ hnil => exact absurd hnil hne
  | value _ hfound => exact unquotedValue?_covers hfound
  | tagEnd _ _ hrest =>
      refine ⟨['>'], _, hrest, rfl, ?_⟩
      split <;> rfl
  | tagParams _ hfound => exact blockParams?_covers hfound
  | attributeName _ _ hfound => exact attributeName?_covers hfound
  | closer _ hfound =>
      refine closer?_covers (fun _ => ?_) hfound
      split <;> rfl
  | word _ hfound => exact (word_of_wordStep? hfound).covers
  | quoteClose _ hrest | openParen _ hrest | closeParen _ hrest => exact ⟨_, _, hrest, rfl, rfl⟩
  | selfClose _ _ hrest => exact ⟨['/', '>'], _, hrest, rfl, rfl⟩
  | equals _ _ hrest => exact ⟨['='], _, hrest, rfl, rfl⟩
  | quoteOpen _ _ _ hrest => exact ⟨[_], _, hrest, rfl, rfl⟩
  | _ => trivial

end TemplateUsage.Scan
