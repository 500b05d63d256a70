import TemplateUsage.Proofs.Scan.Coverage

set_option autoImplicit false

/-!
# How far a pattern looks ahead

A text `read ++ after` is looked at with one text `after` and with another. Patterns
that search for their last character find it by the characters they cover alone
(`Local`), so they agree when neither reaches beyond `read`. Patterns that go on as long
as they can are settled by a character in `read` at which they have to stop. Text goes
on up to markup or an expression, and needs more: see `textRun_congr`.
-/

namespace TemplateUsage.Scan

/-! ## Fronts of a text -/

/-- A character that follows a front shorter than what was read was read. -/
theorem exists_eq_of_append_eq {read after slice rest : List Char} {last : Char}
    (h : read ++ after = slice ++ last :: rest) (hlt : slice.length < read.length) :
    ∃ left, read = slice ++ last :: left := by
  rcases List.append_eq_append_iff.1 h with ⟨more, rfl, -⟩ | ⟨left, rfl, hleft⟩
  · rw [List.length_append] at hlt
    omega
  · cases left with
    | nil =>
        rw [List.append_nil] at hlt
        omega
    | cons c left =>
        rw [List.cons_append, List.cons.injEq] at hleft
        exact ⟨left, by rw [hleft.1]⟩

/-- A character that does not occur after `read` stands in `read`. -/
theorem length_lt_of_not_mem {read after slice rest : List Char} {last : Char}
    (h : read ++ after = slice ++ last :: rest) (hlast : last ∉ after) :
    slice.length < read.length := by
  by_contra hge
  rcases List.append_eq_append_iff.1 h with ⟨more, -, rfl⟩ | ⟨left, rfl, hleft⟩
  · exact hlast (List.mem_append_right _ List.mem_cons_self)
  · rw [List.length_append, Nat.not_lt] at hge
    obtain rfl : left = [] := List.eq_nil_of_length_eq_zero (by omega)
    rw [List.nil_append] at hleft
    exact hlast (hleft ▸ List.mem_cons_self)

/-! ## Patterns that search -/

/-- What the pattern finds it finds by the characters it covers, the last of which is
one of `ends`. -/
def Local {α : Type} (ends : List Char) (width : α → Nat) (pattern : List Char → Option α) :
    Prop :=
  ∀ cs found, pattern cs = some found → ∃ slice last rest, last ∈ ends ∧
    cs = slice ++ last :: rest ∧ slice.length + 1 = width found ∧
    ∀ other, pattern (slice ++ last :: other) = some found

section

variable {α : Type} {ends : List Char} {width : α → Nat} {pattern : List Char → Option α}
  {read after other : List Char} {found : α}

/-- What a local pattern finds within the text read does not depend on what follows. -/
theorem Local.congr (hlocal : Local ends width pattern) (h : pattern (read ++ after) = some found)
    (hwidth : width found ≤ read.length) (other : List Char) :
    pattern (read ++ other) = some found := by
  obtain ⟨slice, last, rest, -, hcs, hlength, hother⟩ := hlocal _ _ h
  obtain ⟨left, rfl⟩ := exists_eq_of_append_eq hcs (by omega)
  rw [List.append_assoc]
  exact hother _

/-- What is found within `read` ends there. -/
theorem Local.exists_mem (hlocal : Local ends width pattern)
    (h : pattern (read ++ after) = some found) (hwidth : width found ≤ read.length) :
    ∃ c ∈ ends, c ∈ read := by
  obtain ⟨slice, last, rest, hlast, hcs, hlength, -⟩ := hlocal _ _ h
  obtain ⟨left, rfl⟩ := exists_eq_of_append_eq hcs (by omega)
  exact ⟨last, hlast, List.mem_append_right _ List.mem_cons_self⟩

/-- The pattern does not reach into a text without the characters it ends in. -/
theorem Local.width_le (hlocal : Local ends width pattern)
    (h : pattern (read ++ after) = some found) (hafter : ∀ c ∈ ends, c ∉ after) :
    width found ≤ read.length := by
  obtain ⟨slice, last, rest, hlast, hcs, hlength, -⟩ := hlocal _ _ h
  have hlt := length_lt_of_not_mem hcs (hafter last hlast)
  omega

/-- Without a find before, there is none before a text without the characters the
pattern ends in. -/
theorem Local.eq_none (hlocal : Local ends width pattern) (h : pattern (read ++ after) = none)
    (hother : ∀ c ∈ ends, c ∉ other) : pattern (read ++ other) = none := by
  cases hfound : pattern (read ++ other) with
  | none => rfl
  | some found =>
      have hsame := hlocal.congr hfound (hlocal.width_le hfound hother) after
      rw [h] at hsame
      cases hsame

end

/-- Block parameters are read up to their closing bar. -/
theorem blockParams?_local : Local ['|'] Found.width blockParams? := by
  intro cs found h
  unfold blockParams? at h
  split at h
  · rename_i inner
    dsimp only at h
    obtain ⟨blanks, bar, hb, hr, rfl, hblanks⟩ := exists_run_append Text.isBlank inner
    rw [hb, hr] at h
    split at h
    · rename_i inner
      split at h
      · cases h
      · rename_i hne
        obtain ⟨names, ending, hn, he, rfl, hnames⟩ := exists_run_append (· != '|') inner
        rw [hn, he] at h
        split at h
        · rename_i rest
          cases h
          refine ⟨['a', 's'] ++ blanks ++ '|' :: names, '|', rest, List.mem_singleton_self _,
            by simp, ?_, fun other => ?_⟩
          · simp only [List.length_append, List.length_cons, List.length_nil]
            omega
          · have hbar : ∀ c ∈ ('|' :: (names ++ '|' :: other)).head?, Text.isBlank c = false := by
              intro c hc
              cases hc
              rfl
            have hstop : ∀ c ∈ ('|' :: other).head?, (c != '|') = false := by
              intro c hc
              cases hc
              rfl
            -- a bar stops each of the two runs, so nothing behind the second is looked at
            have hfirst := takeWhile_run hblanks hbar
            have hsecond := dropWhile_run hblanks hbar
            have hthird := takeWhile_run hnames hstop
            have hfourth := dropWhile_run hnames hstop
            simp only [List.cons_append, List.append_assoc, List.nil_append, blockParams?, hfirst,
              hsecond, hthird, hfourth, hne]
            rfl
        · cases h
    · cases h
  · cases h

theorem stringBody?_local {quote : Char} (hquote : quote ≠ '\\') {cs body : List Char}
    (h : stringBody? quote cs = some body) :
    ∃ rest, cs = body ++ quote :: rest ∧
      ∀ other, stringBody? quote (body ++ quote :: other) = some body := by
  fun_induction stringBody? quote cs generalizing body with
  | case1 => cases h
  | case2 c rest ih =>
      obtain ⟨inner, hinner, rfl⟩ := Option.map_eq_some_iff.1 h
      obtain ⟨tail, rfl, hother⟩ := ih hinner
      refine ⟨tail, rfl, fun other => ?_⟩
      rw [List.cons_append, List.cons_append, stringBody?, hother]
      rfl
  | case3 rest hescape =>
      cases h
      refine ⟨rest, rfl, fun other => ?_⟩
      rw [List.nil_append, stringBody?.eq_3, if_pos rfl]
      intro c tail heq
      exact absurd heq hquote
  | case4 => cases h
  | case5 c rest hescape hne hslash ih =>
      obtain ⟨inner, hinner, rfl⟩ := Option.map_eq_some_iff.1 h
      obtain ⟨tail, rfl, hother⟩ := ih hinner
      refine ⟨tail, rfl, fun other => ?_⟩
      rw [List.cons_append, stringBody?.eq_3, if_neg hne, if_neg hslash, hother]
      · rfl
      · intro d more heq
        exact absurd heq hslash

/-- A string is read up to its closing quote, of either sort. -/
theorem string?_local : Local ['"', '\''] Found.width string? := by
  intro cs found h
  unfold string? at h
  split at h
  · rename_i quote rest
    split at h
    · rename_i hquote
      have hends : quote ∈ ['"', '\''] := by simpa using hquote
      have hslash : quote ≠ '\\' := by
        rintro rfl
        revert hends
        decide
      obtain ⟨body, hbody, rfl⟩ := Option.map_eq_some_iff.1 h
      obtain ⟨tail, rfl, hother⟩ := stringBody?_local hslash hbody
      refine ⟨quote :: body, quote, tail, hends, rfl, rfl, fun other => ?_⟩
      rw [List.cons_append, string?, if_pos hquote, hother]
      rfl
    · cases h
  · cases h

/-- Closing braces are read up to the last of them. -/
theorem closer?_local (closer : Closer) : Local ['\x7d'] Found.width (closer? closer) := by
  intro cs found h
  unfold closer? at h
  split at h
  · cases h
    exact ⟨['~', '\x7d'], '\x7d', _, List.mem_singleton_self _, rfl, rfl, fun _ => rfl⟩
  · cases h
    exact ⟨['\x7d'], '\x7d', _, List.mem_singleton_self _, rfl, rfl, fun _ => rfl⟩
  · cases h
    exact ⟨['~', '\x7d', '\x7d'], '\x7d', _, List.mem_singleton_self _, rfl, rfl, fun _ => rfl⟩
  · cases h
    exact ⟨['\x7d', '\x7d'], '\x7d', _, List.mem_singleton_self _, rfl, rfl, fun _ => rfl⟩
  · cases h
    exact ⟨['\x7d', '~', '\x7d'], '\x7d', _, List.mem_singleton_self _, rfl, rfl, fun _ => rfl⟩
  · cases h

/-- A closing tag is found by its parts. -/
theorem endTag?_eq_some {before name after : List Char} (hbefore : Blanks before)
    (hname : ∀ c ∈ name, isEndNameChar c = true) (hne : name ≠ []) (hafter : Blanks after)
    (other : List Char) :
    endTag? ('<' :: '/' :: (before ++ (name ++ (after ++ '>' :: other)))) =
      some ⟨name, 2 + before.length + name.length + after.length + 1⟩ := by
  have hclosing : ∀ c ∈ ('>' :: other).head?, Text.isBlank c = false := by
    rintro c ⟨⟩
    rfl
  have hend : ∀ c ∈ (after ++ '>' :: other).head?, isEndNameChar c = false := by
    refine head?_blanks_append hafter (fun c hc => ?_) ?_
    · rw [isEndNameChar, hc]
      rfl
    · rintro c ⟨⟩
      rfl
  have hstart : ∀ c ∈ (name ++ (after ++ '>' :: other)).head?, Text.isBlank c = false := by
    intro c hc
    cases name with
    | nil => exact absurd rfl hne
    | cons first tail =>
        cases hc
        exact not_isBlank_of_isEndNameChar (hname c List.mem_cons_self)
  have hempty : name.isEmpty = false := by simpa using hne
  rw [endTag?, takeWhile_run hbefore hstart, dropWhile_run hbefore hstart,
    takeWhile_run hname hend, dropWhile_run hname hend, takeWhile_run hafter hclosing,
    dropWhile_run hafter hclosing, hempty]
  rfl

/-- An end tag is read up to its closing bracket. -/
theorem endTag?_local : Local ['>'] Found.width endTag? := by
  intro cs found h
  unfold endTag? at h
  split at h
  · rename_i inner
    dsimp only at h
    obtain ⟨before, named, hb, hr, rfl, hbefore⟩ := exists_run_append Text.isBlank inner
    rw [hb, hr] at h
    obtain ⟨name, ending, hn, he, rfl, hname⟩ := exists_run_append isEndNameChar named
    rw [hn, he] at h
    obtain ⟨after, closing, ha, hc, rfl, hafter⟩ := exists_run_append Text.isBlank ending
    rw [ha, hc] at h
    split at h
    · rename_i rest
      split at h
      · cases h
      · rename_i hne
        cases h
        rw [List.isEmpty_iff] at hne
        refine ⟨['<', '/'] ++ before ++ name ++ after, '>', rest, List.mem_singleton_self _,
          by simp, ?_, fun other => ?_⟩
        · simp only [List.length_append, List.length_cons, List.length_nil]
        · rw [← endTag?_eq_some hbefore hname hne hafter other]
          simp
    · cases h
  · cases h

/-! ## Comments -/

/-- What ends a comment is found by the characters it covers, and never by two more than
it may cover elsewhere. -/
structure Terminates (ends : List Char) (stop : List Char → Option Nat) : Prop where
  found : Local ends id stop
  close : ∀ {cs other width otherWidth}, stop cs = some width → stop other = some otherWidth →
    otherWidth ≤ width + 1

theorem breakAt_of_stop {stop : List Char → Option Nat} {cs : List Char} {width : Nat}
    (h : stop cs = some width) : breakAt stop cs = some ([], width) := by
  cases cs with
  | nil => rw [breakAt, h, Option.map_some]
  | cons c rest => rw [breakAt, h]

/-- A search for a stop that ends in one of some characters is local to them. -/
theorem breakAt_local {ends : List Char} {stop : List Char → Option Nat}
    (hstop : Terminates ends stop) :
    Local ends (fun found => found.1.length + found.2) (breakAt stop) := by
  intro cs found h
  induction cs generalizing found with
  | nil =>
      obtain ⟨width, hwidth, -⟩ := Option.map_eq_some_iff.1 h
      obtain ⟨slice, last, rest, -, hcs, -⟩ := hstop.found _ _ hwidth
      simp at hcs
  | cons c rest ih =>
      rw [breakAt] at h
      split at h
      · rename_i width hwidth
        cases h
        obtain ⟨slice, last, tail, hlast, hcs, hlength, hother⟩ := hstop.found _ _ hwidth
        refine ⟨slice, last, tail, hlast, hcs, ?_, fun other => breakAt_of_stop (hother other)⟩
        exact hlength.trans (Nat.zero_add width).symm
      · rename_i hnone
        obtain ⟨inner, hinner, rfl⟩ := Option.map_eq_some_iff.1 h
        obtain ⟨slice, last, tail, hlast, rfl, hlength, hother⟩ := ih inner hinner
        dsimp only at hlength
        refine ⟨c :: slice, last, tail, hlast, rfl, ?_, fun other => ?_⟩
        · dsimp only [List.length_cons]
          omega
        · obtain ⟨ending, -, hending, -⟩ := breakAt_eq_some hinner
          -- an earlier stop would lie within what is shared, so it would have been found
          have hearlier : stop (c :: (slice ++ last :: other)) = none := by
            cases hstopped : stop (c :: (slice ++ last :: other)) with
            | none => rfl
            | some width =>
                have hclose := hstop.close hending hstopped
                have hshared : (c :: (slice ++ last :: other)) =
                    (c :: slice ++ [last]) ++ other := by simp
                rw [hshared] at hstopped
                have hfound := hstop.found.congr hstopped (by
                  simp only [List.length_append, List.length_cons, List.length_nil, id]
                  omega) tail
                rw [← hnone, ← hfound]
                simp
          rw [List.cons_append, breakAt, hearlier, hother]
          rfl

theorem stopAt_terminates (stop : List Char) (last : Char) :
    Terminates [last] (stopAt (stop ++ [last])) where
  found := by
    intro cs found h
    obtain ⟨rfl, rest, rfl⟩ := stopAt_eq_some h
    refine ⟨stop, last, rest, List.mem_singleton_self _, by simp, by simp, fun other => ?_⟩
    rw [stopAt, if_pos (startsWith_iff.2 ⟨other, by simp⟩)]
  close := by
    intro cs other width otherWidth h hother
    rw [(stopAt_eq_some h).1, (stopAt_eq_some hother).1]
    exact Nat.le_succ _

theorem longCommentEnd?_terminates : Terminates ['\x7d'] longCommentEnd? where
  found := by
    intro cs found h
    unfold longCommentEnd? at h
    split at h
    · cases h
      exact ⟨['-', '-', '\x7d'], '\x7d', _, List.mem_singleton_self _, rfl, rfl, fun _ => rfl⟩
    · cases h
      exact ⟨['-', '-', '~', '\x7d'], '\x7d', _, List.mem_singleton_self _, rfl, rfl, fun _ => rfl⟩
    · cases h
  close := by
    intro cs other width otherWidth h hother
    obtain ⟨mark, -, hmark, -, rfl⟩ := longCommentEnd?_eq_some h
    obtain ⟨otherMark, -, hotherMark, -, rfl⟩ := longCommentEnd?_eq_some hother
    rcases hmark with rfl | rfl <;> rcases hotherMark with rfl | rfl <;> decide

theorem shortCommentEnd?_terminates : Terminates ['\x7d'] shortCommentEnd? where
  found := by
    intro cs found h
    unfold shortCommentEnd? at h
    split at h
    · cases h
      exact ⟨['\x7d'], '\x7d', _, List.mem_singleton_self _, rfl, rfl, fun _ => rfl⟩
    · cases h
      exact ⟨['~', '\x7d'], '\x7d', _, List.mem_singleton_self _, rfl, rfl, fun _ => rfl⟩
    · cases h
  close := by
    intro cs other width otherWidth h hother
    obtain ⟨mark, -, hmark, -, rfl⟩ := shortCommentEnd?_eq_some h
    obtain ⟨otherMark, -, hotherMark, -, rfl⟩ := shortCommentEnd?_eq_some hother
    rcases hmark with rfl | rfl <;> rcases hotherMark with rfl | rfl <;> decide

/-! ## Patterns that go on -/

section

variable {read : List Char} (after : List Char) {c : Char}

/-- A run that stops within the text read does not depend on what follows. -/
theorem takeWhile_append_of_mem {p : Char → Bool} (hc : c ∈ read) (hp : p c = false) :
    (read ++ after).takeWhile p = read.takeWhile p := by
  induction read with
  | nil => cases hc
  | cons d rest ih =>
      rw [List.cons_append, List.takeWhile_cons, List.takeWhile_cons]
      split
      · rename_i hd
        rcases List.mem_cons.1 hc with rfl | hc
        · rw [hp] at hd
          cases hd
        · rw [ih hc]
      · rfl

theorem dropWhile_append_of_mem {p : Char → Bool} (hc : c ∈ read) (hp : p c = false) :
    (read ++ after).dropWhile p = read.dropWhile p ++ after := by
  induction read with
  | nil => cases hc
  | cons d rest ih =>
      rw [List.cons_append, List.dropWhile_cons, List.dropWhile_cons]
      split
      · rename_i hd
        rcases List.mem_cons.1 hc with rfl | hc
        · rw [hp] at hd
          cases hd
        · rw [ih hc]
      · rfl

omit after in
theorem mem_dropWhile {p : Char → Bool} (hc : c ∈ read) (hp : p c = false) :
    c ∈ read.dropWhile p := by
  have hmem := hc
  rw [← List.takeWhile_append_dropWhile (p := p) (l := read), List.mem_append] at hmem
  rcases hmem with hmem | hmem
  · have hpos := List.mem_takeWhile_imp hmem
    rw [hp] at hpos
    cases hpos
  · exact hmem

theorem head?_append_of_mem (hc : c ∈ read) : (read ++ after).head? = read.head? := by
  cases read with
  | nil => cases hc
  | cons d rest => rfl

theorem startsWith_append_of_mem {start : List Char} (hc : c ∈ read) (hstart : c ∉ start) :
    startsWith start (read ++ after) = startsWith start read := by
  rw [Bool.eq_iff_iff, startsWith_iff, startsWith_iff]
  refine ⟨fun h => ?_, fun h => h.trans (List.prefix_append _ _)⟩
  rcases Nat.le_total start.length read.length with hle | hge
  · exact List.prefix_of_prefix_length_le h (List.prefix_append _ _) hle
  · have hread := List.prefix_of_prefix_length_le (List.prefix_append read after) h hge
    exact absurd (hread.subset hc) hstart

theorem attributeName?_append (h : '>' ∈ read) :
    attributeName? (read ++ after) = attributeName? read := by
  rw [attributeName?, attributeName?, takeWhile_append_of_mem after h rfl]

theorem path?_append (h : '\x7d' ∈ read) : path? (read ++ after) = path? read := by
  rw [path?, path?, takeWhile_append_of_mem after h rfl]

theorem unquotedRun_append (h : '>' ∈ read) :
    unquotedRun (read ++ after) = unquotedRun read := by
  induction read with
  | nil => cases h
  | cons c rest ih =>
      rw [List.cons_append, unquotedRun, unquotedRun]
      rcases List.mem_cons.1 h with rfl | hrest
      · rfl
      · rw [head?_append_of_mem after hrest, ih hrest]

theorem unquotedValue?_append (h : '>' ∈ read) :
    unquotedValue? (read ++ after) = unquotedValue? read := by
  rw [unquotedValue?, unquotedValue?, unquotedRun_append after h]

theorem quotedRun_append {quote : Char} (h : quote ∈ read) :
    quotedRun quote (read ++ after) = quotedRun quote read := by
  induction read with
  | nil => cases h
  | cons c rest ih =>
      rw [List.cons_append, quotedRun, quotedRun]
      rcases List.mem_cons.1 h with rfl | hrest
      · simp
      · rw [head?_append_of_mem after hrest, ih hrest]

theorem hashKey?_append (h : '\x7d' ∈ read) : hashKey? (read ++ after) = hashKey? read := by
  have hafterKey : '\x7d' ∈ read.dropWhile isKeyChar := mem_dropWhile h rfl
  have hafterBlanks : '\x7d' ∈ (read.dropWhile isKeyChar).dropWhile Text.isBlank :=
    mem_dropWhile hafterKey rfl
  rw [hashKey?, hashKey?, takeWhile_append_of_mem after h rfl,
    dropWhile_append_of_mem after h rfl, takeWhile_append_of_mem after hafterKey rfl,
    dropWhile_append_of_mem after hafterKey rfl]
  generalize (read.dropWhile isKeyChar).dropWhile Text.isBlank = ending at hafterBlanks ⊢
  cases ending with
  | nil => cases hafterBlanks
  | cons d tail =>
      by_cases hd : d = '='
      · subst hd
        have htail : '\x7d' ∈ tail := by simpa using hafterBlanks
        simp only [List.cons_append, head?_append_of_mem after htail]
      · simp [hd]

theorem endsWord_append (h : '\x7d' ∈ read) : endsWord (read ++ after) = endsWord read := by
  cases read with
  | nil => cases h
  | cons d rest => rfl

theorem decimalRun_append (h : '\x7d' ∈ read) : decimalRun (read ++ after) = decimalRun read := by
  have hafterWhole : '\x7d' ∈ read.dropWhile Text.isDigit := mem_dropWhile h (by decide)
  rw [decimalRun, decimalRun, takeWhile_append_of_mem after h (by decide),
    dropWhile_append_of_mem after h (by decide)]
  generalize read.dropWhile Text.isDigit = ending at hafterWhole ⊢
  cases ending with
  | nil => cases hafterWhole
  | cons d tail =>
      by_cases hd : d = '.'
      · subst hd
        have htail : '\x7d' ∈ tail := by simpa using hafterWhole
        have hfraction : (tail ++ after).takeWhile Text.isDigit = tail.takeWhile Text.isDigit :=
          takeWhile_append_of_mem after htail (by decide)
        simp only [List.cons_append, hfraction]
      · simp [hd]

omit after in
/-- A number has no brace in it. -/
theorem brace_not_mem_decimalRun (cs : List Char) : '\x7d' ∉ decimalRun cs := by
  have hdigits : ∀ run : List Char, '\x7d' ∉ run.takeWhile Text.isDigit := by
    intro run hmem
    have hdigit := List.mem_takeWhile_imp hmem
    revert hdigit
    decide
  unfold decimalRun
  dsimp only
  split
  · split
    · exact hdigits _
    · rw [List.mem_append, List.mem_cons, not_or, not_or]
      exact ⟨hdigits _, by decide, hdigits _⟩
  · exact hdigits _

omit after in
/-- What stands after a front without the character still has it. -/
theorem mem_drop_of_isPrefix {front : List Char} (hc : c ∈ read) (hfront : front <+: read)
    (hnot : c ∉ front) : c ∈ read.drop front.length := by
  obtain ⟨rest, rfl⟩ := hfront
  rw [List.drop_left]
  exact (List.mem_append.1 hc).resolve_left hnot

theorem number?_append (h : '\x7d' ∈ read) : number? (read ++ after) = number? read := by
  have hsign : '\x7d' ∉ signRun read := by
    intro hmem
    have hminus := (List.mem_filter.1 hmem).2
    revert hminus
    decide
  have hfront : signRun read <+: read := ⟨_, signRun_append_drop read⟩
  have hafterSign := mem_drop_of_isPrefix h hfront hsign
  have hvalue : signRun read ++ decimalRun (read.drop (signRun read).length) <+: read := by
    have hdigits := decimalRun_isPrefix (read.drop (signRun read).length)
    have hwhole := (List.prefix_append_right_inj (signRun read)).2 hdigits
    rwa [signRun_append_drop] at hwhole
  have hbrace : '\x7d' ∉ signRun read ++ decimalRun (read.drop (signRun read).length) := by
    rw [List.mem_append, not_or]
    exact ⟨hsign, brace_not_mem_decimalRun _⟩
  have hsame : signRun (read ++ after) = signRun read := by
    rw [signRun, signRun, head?_append_of_mem after h]
  rw [number?, number?, hsame, List.drop_append_of_le_length hfront.length_le,
    decimalRun_append after hafterSign, List.drop_append_of_le_length hvalue.length_le,
    endsWord_append after (mem_drop_of_isPrefix h hvalue hbrace)]

theorem word?_append {word : List Char} (hword : '\x7d' ∉ word) (h : '\x7d' ∈ read) :
    word? word (read ++ after) = word? word read := by
  rw [word?, word?, startsWith_append_of_mem after h hword]
  cases hstarts : startsWith word read with
  | false => rfl
  | true =>
      have hfront := startsWith_iff.1 hstarts
      rw [List.drop_append_of_le_length hfront.length_le,
        endsWord_append after (mem_drop_of_isPrefix h hfront hword)]

omit after in
theorem isElse_eq_false (h : startsWith ['e', 'l', 's', 'e'] read = false) :
    isElse read = false := by
  unfold isElse
  split
  · cases h
  · rfl

theorem isElse_append (h : '\x7d' ∈ read) : isElse (read ++ after) = isElse read := by
  have hsame : startsWith ['e', 'l', 's', 'e'] (read ++ after) =
      startsWith ['e', 'l', 's', 'e'] read := startsWith_append_of_mem after h (by decide)
  cases hstarts : startsWith ['e', 'l', 's', 'e'] read with
  | false => rw [isElse_eq_false hstarts, isElse_eq_false (hsame.trans hstarts)]
  | true =>
      obtain ⟨rest, rfl⟩ := startsWith_iff.1 hstarts
      have hrest := mem_drop_of_isPrefix h ⟨rest, rfl⟩ (by decide)
      cases rest with
      | nil => cases hrest
      | cons c tail => rfl

/-- The words that are not block parameters and not strings. -/
def plainWord? (cs : List Char) : Option (Kind × Found) :=
  (hashKey? cs).map (.hashKey, ·) <|>
  (number? cs).map (.number, ·) <|>
  keywords.findSome? (fun (word, kind) => (word? word cs).map (kind, ·)) <|>
  (path? cs).map (.path, ·)

theorem plainWord?_append (h : '\x7d' ∈ read) :
    plainWord? (read ++ after) = plainWord? read := by
  have hwords :
      keywords.findSome? (fun (word, kind) => (word? word (read ++ after)).map (kind, ·)) =
        keywords.findSome? (fun (word, kind) => (word? word read).map (kind, ·)) := by
    simp only [keywords, List.findSome?_cons, List.findSome?_nil]
    rw [word?_append after (by decide) h, word?_append after (by decide) h,
      word?_append after (by decide) h, word?_append after (by decide) h]
  rw [plainWord?, plainWord?, hashKey?_append after h, number?_append after h, hwords,
    path?_append after h]

end

theorem wordStep?_of_blockParams {cs : List Char} {found : Found}
    (h : blockParams? cs = some found) : wordStep? cs = some (.blockParams, found) := by
  rw [wordStep?, h]
  rfl

theorem wordStep?_of_string {cs : List Char} {found : Found} (hparams : blockParams? cs = none)
    (h : string? cs = some found) : wordStep? cs = some (.string, found) := by
  rw [wordStep?, hparams, h]
  rfl

/-- What is neither a list of block parameters nor a string is a plain word. -/
theorem wordStep?_of_plain {cs : List Char} (hparams : blockParams? cs = none)
    (hstring : string? cs = none) : wordStep? cs = plainWord? cs := by
  rw [wordStep?, hparams, hstring]
  rfl

/-- A quote starts no plain word. -/
theorem plainWord?_quote {quote : Char} (hquote : quote = '"' ∨ quote = '\'')
    (rest : List Char) : plainWord? (quote :: rest) = none := by
  rcases hquote with rfl | rfl
  · rfl
  · rfl

theorem string?_eq_none {c : Char} (hdouble : c ≠ '"') (hsingle : c ≠ '\'') (rest : List Char) :
    string? (c :: rest) = none := by
  simp [string?, hdouble, hsingle]

/-- A word within `read` is the same before another text, if it is as to block parameters and
plain words. -/
theorem wordStep?_congr {read after other : List Char} {kind : Kind} {found : Found}
    (hne : read ≠ [])
    (hparams : blockParams? (read ++ after) = none → blockParams? (read ++ other) = none)
    (hplain : plainWord? (read ++ after) = some (kind, found) →
      plainWord? (read ++ other) = some (kind, found))
    (h : wordStep? (read ++ after) = some (kind, found)) (hwidth : found.width ≤ read.length) :
    wordStep? (read ++ other) = some (kind, found) := by
  cases hfound : blockParams? (read ++ after) with
  | some params =>
      rw [wordStep?_of_blockParams hfound] at h
      cases h
      exact wordStep?_of_blockParams (blockParams?_local.congr hfound hwidth other)
  | none =>
      cases hstring : string? (read ++ after) with
      | some string =>
          rw [wordStep?_of_string hfound hstring] at h
          cases h
          exact wordStep?_of_string (hparams hfound) (string?_local.congr hstring hwidth other)
      | none =>
          rw [wordStep?_of_plain hfound hstring] at h
          obtain ⟨c, rest, rfl⟩ := List.exists_cons_of_ne_nil hne
          have hquote : ¬ (c = '"' ∨ c = '\'') := by
            intro hquote
            rw [List.cons_append, plainWord?_quote hquote] at h
            cases h
          rw [not_or] at hquote
          rw [wordStep?_of_plain (hparams hfound) (string?_eq_none hquote.1 hquote.2 _)]
          exact hplain h

/-! ## Text -/

/-- Whether text stops before what follows: an expression, escaped or not, or markup. -/
def halts (cs : List Char) : Bool :=
  startsWith ['\\', '\x7b', '\x7b'] cs || startsWith ['\x7b', '\x7b'] cs ||
    startsWith ['<'] cs && opensMarkup (cs.drop 1)

/-- Text stops where something opens and right after two backslashes before braces. -/
theorem textRun_cons (c : Char) (rest : List Char) :
    textRun (c :: rest) =
      if halts (c :: rest) then []
      else if startsWith ['\\', '\\', '\x7b', '\x7b'] (c :: rest) then ['\\', '\\']
      else c :: textRun rest := by
  rw [textRun.eq_def]
  split
  · rename_i heq
    cases heq
  · rename_i heq
    cases heq
    rfl
  · rename_i heq
    cases heq
    rfl
  · rename_i heq
    cases heq
    rfl
  · rename_i hdouble hescaped hopen heq
    cases heq
    have hescaped : startsWith ['\\', '\x7b', '\x7b'] (c :: rest) = false :=
      startsWith_eq_false fun tail heq => hescaped tail (by cases heq; rfl) (by cases heq; rfl)
    have hopen : startsWith ['\x7b', '\x7b'] (c :: rest) = false :=
      startsWith_eq_false fun tail heq => hopen tail (by cases heq; rfl) (by cases heq; rfl)
    have hdouble : startsWith ['\\', '\\', '\x7b', '\x7b'] (c :: rest) = false :=
      startsWith_eq_false fun tail heq => hdouble tail (by cases heq; rfl) (by cases heq; rfl)
    rw [halts, hescaped, hopen, hdouble]
    by_cases hc : c = '<'
    · subst hc
      rfl
    · have hmarkup : startsWith ['<'] (c :: rest) = false :=
        startsWith_eq_false fun tail heq => hc (by cases heq; rfl)
      rw [hmarkup, decide_eq_false hc]
      rfl

/-- Text ends with the text or before what stops it. -/
theorem halts_drop_textRun (cs : List Char) :
    cs.drop (textRun cs).length = [] ∨ halts (cs.drop (textRun cs).length) = true := by
  induction cs with
  | nil => exact .inl rfl
  | cons c rest ih =>
      rw [textRun_cons]
      split
      · exact .inr ‹_›
      · split
        · rename_i hdouble
          obtain ⟨tail, htail⟩ := startsWith_iff.1 hdouble
          rw [← htail]
          exact .inr rfl
        · exact ih

/-- Text stops before this one, which is empty or starts with markup. -/
def Stops (after : List Char) : Prop :=
  after = [] ∨ ∃ rest, after = '<' :: rest ∧ opensMarkup rest = true

/-- The second text may follow in place of the first: text stops before it, and block
parameters and escaped expressions that the first does not close it does not close. -/
structure Replaces (after other : List Char) : Prop where
  stops : Stops other
  params : ∀ left, blockParams? (left ++ after) = none → blockParams? (left ++ other) = none
  braces : ∀ left, breakAt (stopAt ['\x7d', '\x7d']) (left ++ after) = none →
    breakAt (stopAt ['\x7d', '\x7d']) (left ++ other) = none

/-- A text that may follow in place of any other: none, or markup that nothing before it can
end in. -/
structure Inert (after : List Char) : Prop where
  stops : Stops after
  bar : '|' ∉ after
  brace : '\x7d' ∉ after

theorem inert_nil : Inert [] := ⟨.inl rfl, nofun, nofun⟩

/-- An inert text may stand in the place of any other. -/
theorem Inert.replaces {other : List Char} (h : Inert other) (after : List Char) :
    Replaces after other where
  stops := h.stops
  params _ hnone := blockParams?_local.eq_none hnone (List.forall_mem_singleton.2 h.bar)
  braces _ hnone :=
    have hlocal : Local ['\x7d'] _ (breakAt (stopAt ['\x7d', '\x7d'])) :=
      breakAt_local (stopAt_terminates ['\x7d'] '\x7d')
    hlocal.eq_none hnone (List.forall_mem_singleton.2 h.brace)

section

variable {read after other : List Char}

theorem startsWith_append {start : List Char} (h : startsWith start read = true)
    (after : List Char) : startsWith start (read ++ after) = true :=
  startsWith_iff.2 ((startsWith_iff.1 h).trans (List.prefix_append _ _))

theorem startsWith_of_length_le {start : List Char} (hlength : start.length ≤ read.length)
    (h : startsWith start (read ++ after) = true) : startsWith start read = true :=
  startsWith_iff.2
    (List.prefix_of_prefix_length_le (startsWith_iff.1 h) (List.prefix_append _ _) hlength)

theorem startsWith_append_of_length_le {start : List Char} (after : List Char)
    (hlength : start.length ≤ read.length) :
    startsWith start (read ++ after) = startsWith start read :=
  Bool.eq_iff_iff.2 ⟨startsWith_of_length_le hlength, fun h => startsWith_append h after⟩

/-- A fixed text does not reach into one that stops text, which begins with a bracket if it
begins at all. -/
theorem startsWith_of_stops {start : List Char} (hother : Stops other) (hne : read ≠ [])
    (hstart : '<' ∉ start.tail) (h : startsWith start (read ++ other) = true) :
    startsWith start read = true := by
  rw [startsWith_iff] at h ⊢
  rcases hother with rfl | ⟨rest, rfl, -⟩
  · rwa [List.append_nil] at h
  · rcases Nat.le_total start.length read.length with hle | hge
    · exact startsWith_iff.1 (startsWith_of_length_le hle (startsWith_iff.2 h))
    · obtain ⟨more, rfl⟩ := List.prefix_of_prefix_length_le (List.prefix_append read _) h hge
      rw [List.prefix_append_right_inj] at h
      cases more with
      | nil => simp
      | cons c more =>
          have hc : c = '<' := (List.cons_prefix_cons.1 h).1
          subst hc
          cases read with
          | nil => exact absurd rfl hne
          | cons d read => exact absurd (List.mem_append_right _ List.mem_cons_self) hstart

/-- A fixed text that is not there is not there before another text that stops text. -/
theorem startsWith_stops_eq_false {start : List Char} (hother : Stops other) (hne : read ≠ [])
    (hstart : '<' ∉ start.tail) (h : ¬ startsWith start (read ++ after) = true) :
    ¬ startsWith start (read ++ other) = true :=
  fun hnow => h (startsWith_append (startsWith_of_stops hother hne hstart hnow) after)

theorem opensMarkup_append (h : opensMarkup read = true) (after : List Char) :
    opensMarkup (read ++ after) = true := by
  cases read with
  | nil => cases h
  | cons c rest =>
      rw [opensMarkup, Bool.or_eq_true] at h
      rw [List.cons_append, opensMarkup, Bool.or_eq_true]
      exact h.imp_right fun hstarts => startsWith_append hstarts after

theorem opensMarkup_of_stops (hother : Stops other) (h : opensMarkup (read ++ other) = true) :
    opensMarkup read = true := by
  cases read with
  | nil =>
      rcases hother with rfl | ⟨rest, rfl, -⟩
      · exact h
      · cases h
  | cons c rest =>
      rw [List.cons_append, opensMarkup, Bool.or_eq_true] at h
      rw [opensMarkup, Bool.or_eq_true]
      exact h.imp_right (startsWith_of_stops hother (List.cons_ne_nil c rest) (by decide))

/-- Text halts at escaped braces, at braces and at markup. -/
theorem halts_iff {cs : List Char} :
    halts cs = true ↔ startsWith ['\\', '\x7b', '\x7b'] cs = true ∨
      startsWith ['\x7b', '\x7b'] cs = true ∨
      (startsWith ['<'] cs = true ∧ opensMarkup (cs.drop 1) = true) := by
  rw [halts, Bool.or_eq_true, Bool.or_eq_true, Bool.and_eq_true, or_assoc]

/-- Where text halts it halts whatever follows. -/
theorem halts_append (h : halts read = true) (after : List Char) :
    halts (read ++ after) = true := by
  rw [halts_iff] at h ⊢
  rcases h with h | h | ⟨h, hmarkup⟩
  · exact .inl (startsWith_append h after)
  · exact .inr (.inl (startsWith_append h after))
  · refine .inr (.inr ⟨startsWith_append h after, ?_⟩)
    have hone : 1 ≤ read.length := (startsWith_iff.1 h).length_le
    rw [List.drop_append_of_le_length hone]
    exact opensMarkup_append hmarkup after

/-- What halts text before a text that stops lies in front of it. -/
theorem halts_of_stops (hother : Stops other) (hne : read ≠ [])
    (h : halts (read ++ other) = true) : halts read = true := by
  rw [halts_iff] at h ⊢
  rcases h with h | h | ⟨h, hmarkup⟩
  · exact .inl (startsWith_of_stops hother hne (by decide) h)
  · exact .inr (.inl (startsWith_of_stops hother hne (by decide) h))
  · have hstarts := startsWith_of_stops hother hne (by decide) h
    have hone : 1 ≤ read.length := (startsWith_iff.1 hstarts).length_le
    rw [List.drop_append_of_le_length hone] at hmarkup
    exact .inr (.inr ⟨hstarts, opensMarkup_of_stops hother hmarkup⟩)

/-- Nothing is read as text where text stops. -/
theorem textRun_of_stops (hother : Stops other) : textRun other = [] := by
  rcases hother with rfl | ⟨rest, rfl, hmarkup⟩
  · rw [textRun]
  · have hhalts : halts ('<' :: rest) = true := halts_iff.2 (.inr (.inr ⟨rfl, hmarkup⟩))
    rw [textRun_cons, if_pos hhalts]

/-- Two backslashes are text before a text that stops text too. -/
theorem textRun_backslashes (hother : Stops other) :
    textRun ('\\' :: '\\' :: other) = ['\\', '\\'] := by
  have hempty := textRun_of_stops hother
  rcases hother with rfl | ⟨rest, rfl, -⟩
  · rfl
  · have hfirst : halts ('\\' :: '\\' :: '<' :: rest) = false := rfl
    have hsecond : halts ('\\' :: '<' :: rest) = false := rfl
    rw [textRun_cons, hfirst, textRun_cons, hsecond, hempty]
    rfl

theorem textRun_doubled (hother : Stops other)
    (hdouble : startsWith ['\\', '\\', '\x7b', '\x7b'] (read ++ after) = true)
    (hlength : 2 ≤ read.length) (hstop : read.drop 2 = [] ∨ halts (read.drop 2) = true) :
    textRun (read ++ other) = ['\\', '\\'] := by
  obtain ⟨tail, htail⟩ := startsWith_iff.1 hdouble
  match read, hlength with
  | a :: b :: left, _ =>
      simp only [List.cons_append, List.nil_append, List.cons.injEq] at htail
      obtain ⟨rfl, rfl, htail⟩ := htail
      rcases hstop with hnil | hhalts
      · obtain rfl : left = [] := hnil
        exact textRun_backslashes hother
      · -- what stops the text is what was there before: an expression
        have hhalts : halts left = true := hhalts
        cases left with
        | nil => cases hhalts
        | cons d left =>
            obtain ⟨rfl, -⟩ := List.cons.inj htail
            cases left with
            | nil => cases hhalts
            | cons e left =>
                simp only [List.cons_append, List.cons.injEq] at htail
                obtain ⟨-, rfl, -⟩ := htail
                rfl

/-- Text that ends in `read`, or before what stops it there, ends there whatever follows
that stops text. -/
theorem textRun_congr {run : List Char} (hother : Stops other)
    (h : textRun (read ++ after) = run) (hlength : run.length ≤ read.length)
    (hstop : read.drop run.length = [] ∨ halts (read.drop run.length) = true) :
    textRun (read ++ other) = run := by
  induction read generalizing run with
  | nil =>
      obtain rfl := List.eq_nil_of_length_eq_zero (Nat.le_zero.1 hlength)
      exact textRun_of_stops hother
  | cons c rest ih =>
      have hne := List.cons_ne_nil c rest
      rw [List.cons_append, textRun_cons] at h ⊢
      rw [← List.cons_append] at h ⊢
      by_cases hhalts : halts (c :: rest ++ after) = true
      · rw [if_pos hhalts] at h
        subst h
        have hread : halts (c :: rest) = true := hstop.resolve_left hne
        rw [if_pos (halts_append hread other)]
      · have hhalts' : ¬ halts (c :: rest ++ other) = true :=
          fun hnow => hhalts (halts_append (halts_of_stops hother hne hnow) after)
        rw [if_neg hhalts] at h
        rw [if_neg hhalts']
        by_cases hdouble : startsWith ['\\', '\\', '\x7b', '\x7b'] (c :: rest ++ after) = true
        · rw [if_pos hdouble] at h
          subst h
          have hdoubled := textRun_doubled hother hdouble hlength hstop
          rwa [List.cons_append, textRun_cons, ← List.cons_append, if_neg hhalts'] at hdoubled
        · have hdouble' :
              ¬ startsWith ['\\', '\\', '\x7b', '\x7b'] (c :: rest ++ other) = true :=
            startsWith_stops_eq_false hother hne (by decide) hdouble
          rw [if_neg hdouble] at h
          rw [if_neg hdouble']
          subst h
          rw [ih rfl (Nat.le_of_succ_le_succ hlength) hstop]

end

end TemplateUsage.Scan
