import TemplateUsage.Scan.Cases

set_option autoImplicit false

/-!
# Progress of the scanner

Every step that does not fail covers at least one character. Main statement:
`State.step_advances`.
-/

namespace TemplateUsage.Scan

/-! ## Patterns -/

/-- A start tag covers its angle bracket at least. -/
theorem startTag?_width {cs : List Char} {found : Found} (h : startTag? cs = some found) :
    0 < found.width := by
  unfold startTag? at h
  split at h
  · split at h
    · cases h
      simp
    · cases h
  · cases h

theorem endTag?_width {cs : List Char} {found : Found} (h : endTag? cs = some found) :
    0 < found.width := by
  unfold endTag? at h
  split at h
  · dsimp only at h
    split at h
    · split at h
      · cases h
      · cases h
        simp
    · cases h
  · cases h

theorem attributeName?_width {cs : List Char} {found : Found}
    (h : attributeName? cs = some found) : 0 < found.width := by
  unfold attributeName? at h
  split at h
  · cases h
  · rename_i name hname
    cases h
    exact List.length_pos_iff.2 hname

theorem unquotedValue?_width {cs : List Char} {found : Found}
    (h : unquotedValue? cs = some found) : 0 < found.width := by
  unfold unquotedValue? at h
  split at h
  · cases h
  · rename_i value hvalue
    cases h
    exact List.length_pos_iff.2 hvalue

theorem path?_width {cs : List Char} {found : Found} (h : path? cs = some found) :
    0 < found.width := by
  unfold path? at h
  split at h
  · cases h
  · rename_i path hpath
    cases h
    exact List.length_pos_iff.2 hpath

/-- Block parameters cover the word `as` at least. -/
theorem blockParams?_width {cs : List Char} {found : Found} (h : blockParams? cs = some found) :
    0 < found.width := by
  unfold blockParams? at h
  split at h
  · dsimp only at h
    split at h
    · split at h
      · cases h
      · split at h
        · cases h
          simp
        · cases h
    · cases h
  · cases h

/-- Closing braces are never empty. -/
theorem closer?_width {closer : Closer} {cs : List Char} {found : Found}
    (h : closer? closer cs = some found) : 0 < found.width := by
  unfold closer? at h
  split at h <;> cases h <;> decide

theorem string?_width {cs : List Char} {found : Found} (h : string? cs = some found) :
    0 < found.width := by
  unfold string? at h
  split at h
  · split at h
    · obtain ⟨body, _, rfl⟩ := Option.map_eq_some_iff.1 h
      simp
    · cases h
  · cases h

theorem hashKey?_width {cs : List Char} {found : Found} (h : hashKey? cs = some found) :
    0 < found.width := by
  unfold hashKey? at h
  dsimp only at h
  split at h
  · split at h
    · cases h
    · cases h
      simp
  · cases h

theorem number?_width {cs : List Char} {found : Found} (h : number? cs = some found) :
    0 < found.width := by
  unfold number? at h
  dsimp only at h
  split at h
  · rename_i hdigits
    cases h
    simp only [Bool.and_eq_true, Bool.not_eq_true', List.isEmpty_eq_false_iff] at hdigits
    have := List.length_pos_iff.2 hdigits.1
    simp only [Found.whole, List.length_append]
    omega
  · cases h

theorem word?_width {word cs : List Char} {found : Found} (hword : word ≠ [])
    (h : word? word cs = some found) : 0 < found.width := by
  unfold word? at h
  split at h
  · cases h
    exact List.length_pos_iff.2 hword
  · cases h

/-! ## Runs of text -/

/-- In content, a text that opens nothing starts with a character of the text. -/
theorem State.AtText.textRun_ne_nil {state : State} (h : state.AtText) (hne : state.rest ≠ [])
    (htag : startTag? state.rest = none) : textRun state.rest ≠ [] := by
  obtain ⟨-, hescape, hcurly, hcomment, hend⟩ := h
  generalize state.rest = cs at *
  unfold textRun
  split
  · exact absurd rfl hne
  · simp
  · simp [startsWith] at hescape
  · simp [atCurly, startsWith] at hcurly
  · rename_i c rest _ _ _
    split
    · rename_i hc
      simp only [Bool.and_eq_true, decide_eq_true_eq] at hc
      obtain ⟨rfl, hopen⟩ := hc
      cases rest with
      | nil => simp [opensMarkup] at hopen
      | cons d tail =>
          simp only [opensMarkup, Bool.or_eq_true, beq_iff_eq] at hopen
          rcases hopen with (hname | hslash) | hdash
          · simp [startTag?, hname] at htag
          · subst hslash
            simp [startsWith] at hend
          · simp only [startsWith, List.isPrefixOf_cons_cons, Bool.and_eq_true, beq_iff_eq] at hdash
            obtain ⟨rfl, hdash⟩ := hdash
            simp [startsWith, hdash] at hcomment
    · simp

/-- In a quoted value, a text that neither ends the value nor opens anything is not empty. -/
theorem quotedRun_ne_nil {quote : Char} {cs : List Char} (hne : cs ≠ [])
    (hquote : startsWith [quote] cs = false) (hcurly : atCurly cs = false) :
    quotedRun quote cs ≠ [] := by
  cases cs with
  | nil => exact absurd rfl hne
  | cons c rest =>
      unfold quotedRun
      split
      · rename_i hc
        simp only [Bool.or_eq_true, Bool.and_eq_true, decide_eq_true_eq] at hc
        rcases hc with rfl | ⟨rfl, hnext⟩
        · simp [startsWith] at hquote
        · cases rest with
          | nil => simp at hnext
          | cons d tail =>
              simp only [List.head?_cons, Option.some.injEq] at hnext
              subst hnext
              simp [atCurly, startsWith] at hcurly
      · simp

/-! ## Steps -/

/-- A step covers at least one character, unless it fails. -/
def Step.Advances : Step → Prop
  | .emit _ _ width _ => 0 < width
  | .skip width => 0 < width
  | .fail _ _ => True

/-- No word is empty. -/
theorem Word.width_pos {cs : List Char} {kind : Kind} {found : Found} (h : Word cs kind found) :
    0 < found.width := by
  cases h with
  | params h => exact blockParams?_width h
  | string h => exact string?_width h
  | key h => exact hashKey?_width h
  | number h => exact number?_width h
  | keyword hmem h => exact word?_width (mem_keywords hmem).1 h
  | path h => exact path?_width h

/-- Whatever braces open, the braces themselves are covered. -/
theorem AtBraces.advances {offset : Nat} {cs : List Char} {modes : List OpenMode} {step : Step}
    (h : AtBraces offset cs modes step) : step.Advances := by
  cases h with
  | opener =>
      simp only [Step.Advances]
      omega
  | comment =>
      simp only [Step.Advances]
      omega
  | _ => trivial

/-- Every step that does not fail covers at least one character. -/
theorem State.step_advances (state : State) (hne : state.rest ≠ []) : state.step.Advances := by
  have htakes := state.takes_step
  generalize state.step = step at htakes
  cases htakes with
  | braces _ _ hbraces => exact hbraces.advances
  | escape => exact Nat.succ_pos _
  | htmlComment =>
      simp only [Step.Advances]
      omega
  | endTag _ _ hfound => exact endTag?_width hfound
  | startTag _ hfound => exact startTag?_width hfound
  | text htext htag => exact List.length_pos_iff.2 (htext.textRun_ne_nil hne htag)
  | quotedText _ hquote hbraces =>
      exact List.length_pos_iff.2 (quotedRun_ne_nil hne hquote hbraces)
  | tagBlanks _ hpos | blanks _ hpos => exact hpos
  | tagOver _ _ hnil | mustacheOver _ hnil => exact absurd hnil hne
  | value _ hfound => exact unquotedValue?_width hfound
  | tagParams _ hfound => exact blockParams?_width hfound
  | attributeName _ _ hfound => exact attributeName?_width hfound
  | closer _ hfound => exact closer?_width hfound
  | word _ hfound => exact (word_of_wordStep? hfound).width_pos
  | quoteClose | quoteOpen | selfClose | tagEnd | equals | openParen | closeParen =>
      exact Nat.succ_pos _
  | _ => trivial

end TemplateUsage.Scan
