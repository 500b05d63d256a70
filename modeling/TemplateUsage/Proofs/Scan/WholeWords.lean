import TemplateUsage.Proofs.Numerals
import TemplateUsage.Proofs.Scan.Vocabulary

set_option autoImplicit false

/-!
# Words of an expression

In an expression a word is a longest run of path characters (`wordAt`), and every pattern
that finds a key, a number, a keyword or a path there finds the whole of it: none of them
cuts a word in two. What the word is depends on it and on what follows it (`WordSort`), and
each word is of one sort only (`WordSort.unique`). Block parameters are the exception, for
they go on from `as` to the second bar (`Declares`). Main statement: `words_are_whole`.
-/

namespace TemplateUsage

/-- The kinds of words, block parameters and strings apart. -/
def Kind.words : List Kind := [.path, .number, .boolean, .null, .undefined, .hashKey]

namespace Scan

/-! ## Block parameters -/

/-- Block parameters begin in front of a text: `as`, blanks and a bar, before `rest`. -/
structure Declares (cs blanks rest : List Char) : Prop where
  text : cs = 'a' :: 's' :: (blanks ++ '|' :: rest)
  blanks_ne_nil : blanks ≠ []
  blanks : Blanks blanks

section Pattern

variable {cs blanks rest : List Char} (h : Declares cs blanks rest)
include h

theorem Declares.takeWhile_blanks : (blanks ++ '|' :: rest).takeWhile Text.isBlank = blanks := by
  refine takeWhile_run h.blanks ?_
  rintro c ⟨⟩
  decide

theorem Declares.dropWhile_blanks :
    (blanks ++ '|' :: rest).dropWhile Text.isBlank = '|' :: rest := by
  refine dropWhile_run h.blanks ?_
  rintro c ⟨⟩
  decide

/-- A run that no blank belongs to, and `as` does, ends where the blanks begin. -/
theorem Declares.takeWhile_as {p : Char → Bool} (ha : p 'a' = true) (hs : p 's' = true)
    (hblank : ∀ c, Text.isBlank c = true → p c = false) : cs.takeWhile p = ['a', 's'] := by
  have hrun : ∀ c ∈ ['a', 's'], p c = true := by
    rintro c hc
    rcases List.mem_pair.1 hc with rfl | rfl
    · exact ha
    · exact hs
  rw [h.text]
  refine takeWhile_run hrun ?_
  obtain ⟨blank, more, hblanks⟩ := List.exists_cons_of_ne_nil h.blanks_ne_nil
  rw [hblanks]
  rintro c ⟨⟩
  exact hblank _ (h.blanks _ (hblanks ▸ List.mem_cons_self))

omit h in
/-- Block parameters end at the first bar, whatever is before it. -/
theorem Declares.blockParams?_closed {names after : List Char}
    (h : Declares cs blanks (names ++ '|' :: after)) (hbar : '|' ∉ names) :
    blockParams? cs = some ⟨names, blanks.length + names.length + 4⟩ := by
  have hnames : ∀ c ∈ names, (c != '|') = true := by
    intro c hc
    rw [bne_iff_ne]
    rintro rfl
    exact hbar hc
  have hend : ∀ c ∈ ('|' :: after).head?, (c != '|') = false := by
    rintro c ⟨⟩
    rfl
  have hsome : blanks.isEmpty = false := List.isEmpty_eq_false_iff.2 h.blanks_ne_nil
  rw [h.text, blockParams?]
  simp only [h.takeWhile_blanks, h.dropWhile_blanks, takeWhile_run hnames hend,
    dropWhile_run hnames hend, hsome, Bool.false_eq_true, if_false, Option.some.injEq,
    Found.mk.injEq, true_and]
  omega

/-- Without a bar after the first there are no block parameters. -/
theorem Declares.blockParams?_unclosed (hbar : '|' ∉ rest) : blockParams? cs = none := by
  rw [Option.eq_none_iff_forall_ne_some]
  intro found hfound
  have hsome : (blockParams? cs).isSome = true := by rw [hfound]; rfl
  obtain ⟨inner, names, htext, -, hnames, hmem⟩ := Exchange.blockParams?_isSome.1 hsome
  rw [h.text] at htext
  cases htext
  rw [h.dropWhile_blanks] at hnames
  cases hnames
  exact hbar hmem

end Pattern

/-- All block parameters begin and end so. -/
theorem exists_declares_of_blockParams? {cs : List Char} {found : Found}
    (h : blockParams? cs = some found) :
    ∃ blanks after, Declares cs blanks (found.value ++ '|' :: after) := by
  obtain ⟨slice, after, hsplit, -, blanks, hne, hblanks, rfl⟩ := blockParams?_covers h
  refine ⟨blanks, after, ?_, hne, hblanks⟩
  rw [hsplit]
  simp

/-- `as` and names between bars are in front of a text. -/
def IsDeclaration (cs : List Char) : Prop :=
  ∃ blanks names after, Declares cs blanks (names ++ '|' :: after) ∧ '|' ∉ names

theorem isDeclaration_of_blockParams? {cs : List Char} {found : Found}
    (h : blockParams? cs = some found) : IsDeclaration cs := by
  obtain ⟨blanks, after, hdeclares⟩ := exists_declares_of_blockParams? h
  exact ⟨blanks, found.value, after, hdeclares, bar_not_mem_blockParams? h⟩

theorem not_isDeclaration {cs : List Char} (h : blockParams? cs = none) : ¬ IsDeclaration cs := by
  rintro ⟨blanks, names, after, hdeclares, hbar⟩
  rw [hdeclares.blockParams?_closed hbar] at h
  cases h

/-! ## Words -/

/-- The longest run of path characters in front of a text. -/
def wordAt (cs : List Char) : List Char := cs.takeWhile isPathChar

/-- What follows the word in front of a text. -/
def afterWord (cs : List Char) : List Char := cs.dropWhile isPathChar

theorem wordAt_append_afterWord (cs : List Char) : wordAt cs ++ afterWord cs = cs :=
  List.takeWhile_append_dropWhile

theorem isPathChar_of_isKeyChar {c : Char} (h : isKeyChar c = true) : isPathChar c = true :=
  (Bool.and_eq_true_iff.1 h).1

theorem not_isPathChar_of_isBlank {c : Char} (h : Text.isBlank c = true) :
    isPathChar c = false := by
  rw [isPathChar, h]
  rfl

/-- A run of path characters is the word if no such character goes on with it. -/
theorem word_of_run {word after : List Char} (hword : ∀ c ∈ word, isPathChar c = true)
    (hafter : ∀ c ∈ after.head?, isPathChar c = false) :
    wordAt (word ++ after) = word ∧ afterWord (word ++ after) = after :=
  ⟨takeWhile_run hword hafter, dropWhile_run hword hafter⟩

/-- Where a word may end, no path character follows. -/
theorem not_isPathChar_of_endsWord {after : List Char} (h : endsWord after = true) :
    ∀ c ∈ after.head?, isPathChar c = false := by
  cases after with
  | nil => rintro c ⟨⟩
  | cons c rest =>
      rintro c ⟨⟩
      simp only [endsWord, List.contains_cons, List.contains_nil, Bool.or_eq_true,
        beq_iff_eq, Bool.false_eq_true, or_false] at h
      rcases h with hblank | rfl | rfl | rfl | rfl
      · exact not_isPathChar_of_isBlank hblank
      · rfl
      · rfl
      · rfl
      · rfl

/-- No word ends where one begins. -/
theorem endsWord_of_wordAt {cs : List Char} (h : wordAt cs ≠ []) : endsWord cs = false := by
  rw [← Bool.not_eq_true]
  intro hends
  have hhead := not_isPathChar_of_endsWord hends
  cases cs with
  | nil => exact h rfl
  | cons c rest =>
      refine h ?_
      rw [wordAt, List.takeWhile_cons, hhead c rfl]
      rfl

/-- A word is no string. -/
theorem string?_of_wordAt {cs : List Char} (h : wordAt cs ≠ []) : string? cs = none := by
  cases cs with
  | nil => rfl
  | cons c rest =>
      have hpath : isPathChar c = true := by
        by_contra hother
        exact h (List.takeWhile_cons_of_neg hother)
      refine string?_eq_none ?_ ?_ rest
      · rintro rfl
        cases hpath
      · rintro rfl
        cases hpath

/-- The word in front of a text is a key: a single equals sign follows it, after blanks, and
each of its characters may stand in a key. -/
structure IsKey (cs : List Char) : Prop where
  chars : ∀ c ∈ wordAt cs, isKeyChar c = true
  assigned : ∃ blanks rest, Blanks blanks ∧ afterWord cs = blanks ++ '=' :: rest ∧
    rest.head? ≠ some '='

/-- A number or a keyword may end where the word in front of the text does. -/
def Ends (cs : List Char) : Prop := endsWord (afterWord cs) = true

/-- The word in front of a declaration is `as`. -/
theorem Declares.word {cs blanks rest : List Char} (h : Declares cs blanks rest) :
    wordAt cs = ['a', 's'] ∧ afterWord cs = blanks ++ '|' :: rest := by
  have hbar : ∀ c ∈ ('|' :: rest).head?, isPathChar c = false := by
    rintro c ⟨⟩
    rfl
  have has : ∀ c ∈ ['a', 's'], isPathChar c = true :=
    List.forall_mem_cons.2 ⟨rfl, List.forall_mem_singleton.2 rfl⟩
  rw [h.text]
  exact word_of_run has
    (head?_blanks_append h.blanks (fun _ => not_isPathChar_of_isBlank) hbar)

/-- What a declaration has after its blanks is a bar and no equals sign. -/
theorem Declares.not_isKey {cs blanks rest : List Char} (h : Declares cs blanks rest) :
    ¬ IsKey cs := by
  rintro ⟨-, others, next, hothers, hafter, -⟩
  have hequals : ∀ c ∈ ('=' :: next).head?, Text.isBlank c = false := by
    rintro c ⟨⟩
    rfl
  have hdrop := dropWhile_run hothers hequals
  rw [← hafter, h.word.2, h.dropWhile_blanks] at hdrop
  cases hdrop

/-! ## Keys -/

/-- A key that is found is the word, and a single equals sign follows it. -/
theorem hashKey?_sound {cs : List Char} {found : Found} (h : hashKey? cs = some found) :
    IsKey cs ∧ found.value = wordAt cs ∧ wordAt cs ≠ [] := by
  unfold hashKey? at h
  dsimp only at h
  obtain ⟨key, after, hk, ha, rfl, hkey⟩ := exists_run_append isKeyChar cs
  rw [hk, ha] at h
  obtain ⟨blanks, ending, hb, he, rfl, hblanks⟩ := exists_run_append Text.isBlank after
  rw [hb, he] at h
  split at h
  · rename_i next
    split at h
    · cases h
    · rename_i hsingle
      cases h
      rw [Bool.or_eq_true, not_or, decide_eq_true_eq] at hsingle
      have hequals : ∀ c ∈ ('=' :: next).head?, isPathChar c = false := by
        rintro c ⟨⟩
        rfl
      obtain ⟨hword, hafter⟩ := word_of_run (fun c hc => isPathChar_of_isKeyChar (hkey c hc))
        (head?_blanks_append hblanks (fun _ => not_isPathChar_of_isBlank) hequals)
      refine ⟨⟨?_, blanks, next, hblanks, hafter, hsingle.2⟩, hword.symm, ?_⟩
      · rwa [hword]
      · rw [hword]
        exact fun hempty => hsingle.1 (List.isEmpty_iff.2 hempty)
  · cases h

theorem IsKey.hashKey?_ne_none {cs : List Char} (h : IsKey cs) (hne : wordAt cs ≠ []) :
    hashKey? cs ≠ none := by
  obtain ⟨hchars, blanks, rest, hblanks, hafter, hsingle⟩ := h
  have hequals : ∀ c ∈ ('=' :: rest).head?, isKeyChar c = false := by
    rintro c ⟨⟩
    rfl
  have hblank : ∀ c, Text.isBlank c = true → isKeyChar c = false := by
    intro c hc
    rw [isKeyChar, not_isPathChar_of_isBlank hc]
    rfl
  have hend := head?_blanks_append hblanks hblank hequals
  have hstop : ∀ c ∈ ('=' :: rest).head?, Text.isBlank c = false := by
    rintro c ⟨⟩
    rfl
  have hsome : (wordAt cs).isEmpty = false := List.isEmpty_eq_false_iff.2 hne
  rw [← wordAt_append_afterWord cs, hafter, hashKey?]
  simp only [takeWhile_run hchars hend, dropWhile_run hchars hend, dropWhile_run hblanks hstop,
    hsome, hsingle, decide_false, Bool.or_false, Bool.false_eq_true, if_false]
  exact Option.some_ne_none _

/-! ## Numbers -/

theorem isPathChar_of_isDigit {c : Char} (h : Text.isDigit c = true) : isPathChar c = true :=
  isPathChar_of_isKeyChar (isKeyChar_of_isDigit h)

/-- A numeral is made of path characters. -/
theorem isPathChar_of_isNumeral {word : List Char} (h : IsNumeral word) :
    ∀ c ∈ word, isPathChar c = true := by
  have hsigned : ∀ sign : List Char, sign = [] ∨ sign = ['-'] →
      ∀ c ∈ sign, isPathChar c = true := by
    rintro sign (rfl | rfl)
    · exact List.forall_mem_nil _
    · exact List.forall_mem_singleton.2 rfl
  cases h with
  | integer hsign hdigits =>
      exact List.forall_mem_append.2
        ⟨hsigned _ hsign, fun c hc => isPathChar_of_isDigit (hdigits.2 c hc)⟩
  | decimal hsign hwhole hfraction =>
      refine List.forall_mem_append.2 ⟨hsigned _ hsign, List.forall_mem_append.2
        ⟨fun c hc => isPathChar_of_isDigit (hwhole.2 c hc), List.forall_mem_cons.2 ⟨rfl, ?_⟩⟩⟩
      exact fun c hc => isPathChar_of_isDigit (hfraction.2 c hc)

theorem endsWord_of_number? {cs : List Char} {found : Found} (h : number? cs = some found) :
    endsWord (cs.drop found.width) = true := by
  unfold number? at h
  dsimp only at h
  split at h
  · rename_i hdigits
    cases h
    exact (Bool.and_eq_true_iff.1 hdigits).2
  · cases h

/-- A number that is found is the word. -/
theorem number?_sound {cs : List Char} {found : Found} (h : number? cs = some found) :
    found = .whole (wordAt cs) ∧ IsNumeral (wordAt cs) ∧ Ends cs := by
  have hnumeral := number?_isNumeral h
  obtain ⟨slice, after, hsplit, hwidth, hslice⟩ := number?_covers h
  obtain rfl : slice = found.value := hslice
  have hends := endsWord_of_number? h
  rw [hsplit, ← hwidth, List.drop_left] at hends
  obtain ⟨hword, hafter⟩ := word_of_run (isPathChar_of_isNumeral hnumeral)
    (not_isPathChar_of_endsWord hends)
  rw [← hsplit] at hword hafter
  refine ⟨?_, ?_, ?_⟩
  · rw [hword, Found.whole, hwidth]
  · rwa [hword]
  · rwa [Ends, hafter]

/-- What ends a word is neither a digit nor a point. -/
theorem not_isDigit_of_endsWord {after : List Char} (h : endsWord after = true) :
    ∀ c ∈ after.head?, Text.isDigit c = false ∧ c ≠ '.' := by
  intro c hc
  have hother := not_isPathChar_of_endsWord h c hc
  refine ⟨?_, ?_⟩
  · rw [← Bool.not_eq_true]
    intro hdigit
    rw [isPathChar_of_isDigit hdigit] at hother
    cases hother
  · rintro rfl
    cases hother

theorem decimalRun_digits {digits after : List Char} (hdigits : IsDigits digits)
    (h : endsWord after = true) : decimalRun (digits ++ after) = digits := by
  have hend : ∀ c ∈ after.head?, Text.isDigit c = false :=
    fun c hc => (not_isDigit_of_endsWord h c hc).1
  rw [decimalRun, takeWhile_run hdigits.2 hend, dropWhile_run hdigits.2 hend]
  split
  · exact absurd rfl (not_isDigit_of_endsWord h '.' rfl).2
  · rfl

theorem decimalRun_fraction {whole fraction after : List Char} (hwhole : IsDigits whole)
    (hfraction : IsDigits fraction) (h : endsWord after = true) :
    decimalRun (whole ++ '.' :: (fraction ++ after)) = whole ++ '.' :: fraction := by
  have hpoint : ∀ c ∈ ('.' :: (fraction ++ after)).head?, Text.isDigit c = false := by
    rintro c ⟨⟩
    decide
  have hend : ∀ c ∈ after.head?, Text.isDigit c = false :=
    fun c hc => (not_isDigit_of_endsWord h c hc).1
  have hparts : (whole.isEmpty || fraction.isEmpty) = false := by
    rw [List.isEmpty_eq_false_iff.2 hwhole.1, List.isEmpty_eq_false_iff.2 hfraction.1]
    rfl
  rw [decimalRun, takeWhile_run hwhole.2 hpoint, dropWhile_run hwhole.2 hpoint]
  simp only [takeWhile_run hfraction.2 hend, hparts, Bool.false_eq_true, if_false]

theorem signRun_digits {sign digits : List Char} (hsign : sign = [] ∨ sign = ['-'])
    (hdigits : IsDigits digits) (after : List Char) :
    signRun (sign ++ (digits ++ after)) = sign := by
  rcases hsign with rfl | rfl
  · obtain ⟨c, tail, rfl⟩ := List.exists_cons_of_ne_nil hdigits.1
    have hc : c ≠ '-' := by
      rintro rfl
      exact absurd (hdigits.2 '-' List.mem_cons_self) (by decide)
    simp [signRun, hc]
  · rfl

/-- A number is found where its sign and its digits are. -/
theorem number?_of_runs {sign digits after : List Char}
    (hsign : signRun (sign ++ (digits ++ after)) = sign)
    (hrun : decimalRun (digits ++ after) = digits) (hne : digits ≠ [])
    (h : endsWord after = true) :
    number? (sign ++ (digits ++ after)) = some (.whole (sign ++ digits)) := by
  have hsome : digits.isEmpty = false := List.isEmpty_eq_false_iff.2 hne
  rw [number?, hsign, List.drop_left, hrun, ← List.append_assoc, List.drop_left, hsome, h]
  rfl

theorem number?_complete {word after : List Char} (hword : IsNumeral word)
    (h : endsWord after = true) : number? (word ++ after) = some (.whole word) := by
  cases hword with
  | integer hsign hdigits =>
      rw [List.append_assoc]
      exact number?_of_runs (signRun_digits hsign hdigits after) (decimalRun_digits hdigits h)
        hdigits.1 h
  | @decimal sign whole fraction hsign hwhole hfraction =>
      have hrun := decimalRun_fraction hwhole hfraction h
      have hstart := signRun_digits hsign hwhole ('.' :: (fraction ++ after))
      have hshape : whole ++ '.' :: (fraction ++ after) = whole ++ '.' :: fraction ++ after := by
        simp
      rw [hshape] at hrun hstart
      rw [List.append_assoc]
      exact number?_of_runs hstart hrun (List.append_ne_nil_of_left_ne_nil hwhole.1 _) h

/-! ## Keywords and paths -/

theorem isPathChar_of_mem_keywords {word : List Char} {kind : Kind} (h : (word, kind) ∈ keywords) :
    ∀ c ∈ word, isPathChar c = true := by
  have hall : ∀ entry ∈ keywords, entry.1.all isPathChar = true := by decide
  exact List.all_eq_true.1 (hall _ h)

/-- A keyword is found where it is the word and may end. -/
theorem word?_eq_some_iff {word cs : List Char} {found : Found}
    (hpath : ∀ c ∈ word, isPathChar c = true) :
    word? word cs = some found ↔ found = .whole word ∧ wordAt cs = word ∧ Ends cs := by
  rw [word?, Option.ite_none_right_eq_some, Bool.and_eq_true, startsWith_iff, Option.some.injEq]
  constructor
  · rintro ⟨⟨⟨after, rfl⟩, hends⟩, rfl⟩
    rw [List.drop_left] at hends
    obtain ⟨hword, hafter⟩ := word_of_run hpath (not_isPathChar_of_endsWord hends)
    exact ⟨rfl, hword, by rwa [Ends, hafter]⟩
  · rintro ⟨rfl, rfl, hends⟩
    have hsplit := wordAt_append_afterWord cs
    refine ⟨⟨⟨afterWord cs, hsplit⟩, ?_⟩, rfl⟩
    nth_rewrite 2 [← hsplit]
    rwa [List.drop_left]

theorem path?_eq {cs : List Char} (hne : wordAt cs ≠ []) :
    path? cs = some (.whole (wordAt cs)) := by
  unfold path?
  split
  · exact absurd ‹_› hne
  · rfl

/-! ## What a word is -/

/-- The kind of the word in front of a text. -/
inductive WordSort (cs : List Char) : Kind → Prop where
  | params : IsDeclaration cs → WordSort cs .blockParams
  | key : IsKey cs → WordSort cs .hashKey
  | number : ¬ IsKey cs → IsNumeral (wordAt cs) → Ends cs → WordSort cs .number
  | keyword {kind : Kind} : ¬ IsKey cs → (wordAt cs, kind) ∈ keywords → Ends cs → WordSort cs kind
  | path : ¬ IsDeclaration cs → ¬ IsKey cs → ¬ (IsNumeral (wordAt cs) ∧ Ends cs) →
      (∀ kind, ¬ ((wordAt cs, kind) ∈ keywords ∧ Ends cs)) → WordSort cs .path

/-- No keyword begins as a numeral does. -/
theorem not_isNumeral_of_mem_keywords {word : List Char} {kind : Kind}
    (h : (word, kind) ∈ keywords) : ¬ IsNumeral word := by
  intro hnumeral
  have hall : ∀ entry ∈ keywords, number? (entry.1 ++ []) = none := by decide
  have hfound := number?_complete hnumeral (show endsWord [] = true from rfl)
  rw [hall _ h] at hfound
  cases hfound

/-- The word of a declaration is neither a numeral nor a keyword. -/
theorem Declares.not_isNumeral {cs blanks rest : List Char} (h : Declares cs blanks rest) :
    ¬ IsNumeral (wordAt cs) := by
  rw [h.word.1]
  intro hnumeral
  exact absurd (number?_complete hnumeral (show endsWord [] = true from rfl)) (by decide)

theorem Declares.not_keyword {cs blanks rest : List Char} (h : Declares cs blanks rest)
    (kind : Kind) : (wordAt cs, kind) ∉ keywords := by
  have hall : ∀ entry ∈ keywords, entry.1 ≠ ['a', 's'] := by decide
  exact fun hmem => hall _ hmem h.word.1

theorem keyword_unique {word : List Char} {kind other : Kind} (h : (word, kind) ∈ keywords)
    (hother : (word, other) ∈ keywords) : kind = other := by
  have hall : ∀ entry ∈ keywords, ∀ same ∈ keywords, entry.1 = same.1 → entry.2 = same.2 := by
    decide
  exact hall _ h _ hother rfl

/-- A word is of one sort. -/
theorem WordSort.unique {cs : List Char} {kind other : Kind} (h : WordSort cs kind)
    (hother : WordSort cs other) : kind = other := by
  -- of two sorts, one excludes the other by its own condition or by one of these
  have hkey : IsDeclaration cs → ¬ IsKey cs := fun ⟨_, _, _, h, _⟩ => h.not_isKey
  have hnumeral : IsDeclaration cs → ¬ IsNumeral (wordAt cs) :=
    fun ⟨_, _, _, h, _⟩ => h.not_isNumeral
  have hkeyword : IsDeclaration cs → ∀ kind, (wordAt cs, kind) ∉ keywords :=
    fun ⟨_, _, _, h, _⟩ => h.not_keyword
  have hboth : ∀ kind, (wordAt cs, kind) ∈ keywords → ¬ IsNumeral (wordAt cs) :=
    fun _ => not_isNumeral_of_mem_keywords
  cases h <;> cases hother <;> grind [keyword_unique]

/-- A token has the whole word for its value, and covers nothing else unless it is a key. Block
parameters go on after the word. -/
structure TakesWord (cs : List Char) (kind : Kind) (value : List Char) (width : Nat) : Prop where
  value_eq : kind ≠ .blockParams → value = wordAt cs
  width_eq : kind ∉ [.blockParams, .hashKey] → width = (wordAt cs).length

theorem takesWord_whole (cs : List Char) (kind : Kind) :
    TakesWord cs kind (wordAt cs) (wordAt cs).length :=
  ⟨fun _ => rfl, fun _ => rfl⟩

/-- The scanner takes every word whole, as what it is. The patterns are tried in turn, and each
fails on all words that are not of its sort. -/
theorem exists_wordStep? {cs : List Char} (hne : wordAt cs ≠ []) :
    ∃ kind found, wordStep? cs = some (kind, found) ∧ WordSort cs kind ∧
      TakesWord cs kind found.value found.width := by
  cases hparams : blockParams? cs with
  | some found =>
      exact ⟨.blockParams, found, wordStep?_of_blockParams hparams,
        .params (isDeclaration_of_blockParams? hparams), by simp, by simp⟩
  | none =>
      rw [wordStep?_of_plain hparams (string?_of_wordAt hne), plainWord?]
      cases hkey : hashKey? cs with
      | some found =>
          obtain ⟨hisKey, hvalue, -⟩ := hashKey?_sound hkey
          exact ⟨.hashKey, found, rfl, .key hisKey, fun _ => hvalue, by simp⟩
      | none =>
          have hnotKey : ¬ IsKey cs := fun hisKey => hisKey.hashKey?_ne_none hne hkey
          cases hnumber : number? cs with
          | some found =>
              obtain ⟨rfl, hnumeral, hends⟩ := number?_sound hnumber
              exact ⟨.number, _, rfl, .number hnotKey hnumeral hends, takesWord_whole cs _⟩
          | none =>
              have hnotNumber : ¬ (IsNumeral (wordAt cs) ∧ Ends cs) := by
                rintro ⟨hnumeral, hends⟩
                have hfound := number?_complete hnumeral hends
                rw [wordAt_append_afterWord, hnumber] at hfound
                cases hfound
              cases hwords : List.findSome? _ keywords with
              | some result =>
                  obtain ⟨⟨word, kind⟩, hmem, hresult⟩ := List.exists_of_findSome?_eq_some hwords
                  obtain ⟨found, hfound, rfl⟩ := Option.map_eq_some_iff.1 hresult
                  obtain ⟨rfl, rfl, hends⟩ :=
                    (word?_eq_some_iff (isPathChar_of_mem_keywords hmem)).1 hfound
                  exact ⟨kind, _, rfl, .keyword hnotKey hmem hends, takesWord_whole cs _⟩
              | none =>
                  have hnotWord : ∀ kind, ¬ ((wordAt cs, kind) ∈ keywords ∧ Ends cs) := by
                    rintro kind ⟨hmem, hends⟩
                    have hnone := List.findSome?_eq_none_iff.1 hwords _ hmem
                    have hfound := (word?_eq_some_iff (isPathChar_of_mem_keywords hmem)).2
                      ⟨rfl, rfl, hends⟩
                    rw [Option.map_eq_none_iff, hfound] at hnone
                    cases hnone
                  rw [path?_eq hne]
                  exact ⟨.path, _, rfl,
                    .path (not_isDeclaration hparams) hnotKey hnotNumber hnotWord,
                    takesWord_whole cs _⟩

/-- The scanner is inside an expression. -/
def State.InExpression (state : State) : Prop :=
  ∃ closer start outer, state.modes = ⟨.expression closer, start⟩ :: outer

/-- A step at a word emits it. -/
theorem State.InExpression.exists_step {state : State} (h : state.InExpression)
    (hne : wordAt state.rest ≠ []) :
    ∃ kind value width, state.step = .emit kind value width state.modes ∧
      WordSort state.rest kind ∧ TakesWord state.rest kind value width := by
  obtain ⟨offset, rest, modes, awaitsValue⟩ := state
  obtain ⟨closer, start, outer, rfl⟩ := h
  obtain ⟨kind, found, hword, hsort, htakes⟩ := exists_wordStep? hne
  exact ⟨kind, found.value, found.width,
    step_word (endsWord_of_wordAt hne) hword offset start closer outer awaitsValue, hsort, htakes⟩

/-! ## Tokens -/

theorem isNumeral_ne_nil {word : List Char} (h : IsNumeral word) : word ≠ [] := by
  cases h with
  | integer _ hdigits => exact List.append_ne_nil_of_right_ne_nil _ hdigits.1
  | decimal _ hwhole _ =>
      exact List.append_ne_nil_of_right_ne_nil _ (List.append_ne_nil_of_left_ne_nil hwhole.1 _)

/-- What is found as a word stands at one. -/
theorem Word.wordAt_ne_nil {cs : List Char} {kind : Kind} {found : Found} (h : Word cs kind found)
    (hkind : kind ∈ Kind.words) : wordAt cs ≠ [] := by
  cases h with
  | params _ => exact absurd hkind (by decide)
  | string _ => exact absurd hkind (by decide)
  | key h => exact (hashKey?_sound h).2.2
  | number h => exact isNumeral_ne_nil (number?_sound h).2.1
  | keyword hmem h =>
      rw [((word?_eq_some_iff (isPathChar_of_mem_keywords hmem)).1 h).2.1]
      exact (mem_keywords hmem).1
  | path h =>
      intro hempty
      rw [path?, show cs.takeWhile isPathChar = [] from hempty] at h
      cases h

/-- A token of such a kind is found in an expression, at a word. -/
theorem State.at_word_of_step {state : State} {kind : Kind} {value : List Char} {width : Nat}
    {modes : List OpenMode} (hstep : state.step = .emit kind value width modes)
    (hkind : kind ∈ Kind.words) : state.InExpression ∧ wordAt state.rest ≠ [] := by
  cases State.takes_of_step hstep with
  | braces _ _ hbraces =>
      have hopeners : ∀ kind ∈ Kind.words, kind ∉ .curlyComment :: Kind.curlyOpeners := by decide
      exact absurd hbraces.kind_mem (hopeners kind hkind)
  | tagEnd | closer =>
      split at hkind
      · exact absurd hkind (by decide)
      · exact absurd hkind (by decide)
  | word hword hfound =>
      obtain ⟨closer, start, outer, hmodes, -⟩ := hword.modes
      exact ⟨⟨closer, start, outer, hmodes⟩, (word_of_wordStep? hfound).wordAt_ne_nil hkind⟩
  | _ => exact absurd hkind (by decide)

/-- Words are not split. Every path, number, keyword and key of a text is found in an
expression and has for its value the longest run of path characters there; it is what the
run and what follows it make it, and covers just the run unless it is a key. And in any state
inside an expression that stands at a word, the word is of one sort and the next token is of
this kind: block parameters where `as` and names between bars stand, a key where a single
equals sign follows, a number or a keyword where the whole word is one and may end, and a
path in all other cases. -/
theorem words_are_whole (source : String) :
    (∀ token ∈ (ofText source).tokens, token.kind ∈ Kind.words →
      (∃ pieces state, Run (.initial source.toList) pieces state ∧ state.InExpression ∧
        state.offset = token.start) ∧
      token.lexeme.value.toList = wordAt (source.toList.drop token.start) ∧
      token.lexeme.value.toList ≠ [] ∧
      WordSort (source.toList.drop token.start) token.kind ∧
      (token.kind ≠ .hashKey → token.stop = token.start + token.lexeme.value.toList.length)) ∧
    ∀ state : State, state.InExpression → wordAt state.rest ≠ [] →
      (∃! kind, WordSort state.rest kind) ∧
      ∀ kind, WordSort state.rest kind ↔
        ∃ value width, state.step = .emit kind value width state.modes ∧
          TakesWord state.rest kind value width := by
  have hstates : ∀ state : State, state.InExpression → wordAt state.rest ≠ [] →
      ∀ kind, WordSort state.rest kind ↔
        ∃ value width, state.step = .emit kind value width state.modes ∧
          TakesWord state.rest kind value width := by
    intro state hinside hne kind
    obtain ⟨found, value, width, hstep, hsort, htakes⟩ := hinside.exists_step hne
    constructor
    · intro hkind
      obtain rfl := hsort.unique hkind
      exact ⟨value, width, hstep, htakes⟩
    · rintro ⟨_, _, hother, -⟩
      rw [hstep] at hother
      cases hother
      exact hsort
  refine ⟨fun token hmem hkind => ?_, fun state hinside hne => ⟨?_, hstates state hinside hne⟩⟩
  · obtain ⟨front, back, htokens⟩ := List.append_of_mem hmem
    obtain ⟨pieces, state, width, modes, hrun, -, -, hstep, hstart, hstop, hrest⟩ :=
      exists_run_of_tokens htokens
    obtain ⟨hinside, hne⟩ := State.at_word_of_step hstep hkind
    obtain ⟨found, value, width', hfound, hsort, htakes⟩ := hinside.exists_step hne
    rw [hstep] at hfound
    cases hfound
    rw [hrest] at hne hsort htakes
    have hparams : token.kind ≠ .blockParams := by
      intro hparams
      rw [hparams] at hkind
      exact absurd hkind (by decide)
    have hvalue := htakes.value_eq hparams
    refine ⟨⟨pieces, state, hrun, hinside, hstart.symm⟩, hvalue, hvalue ▸ hne, hsort, ?_⟩
    intro hkey
    rw [hstop, hstart, htakes.width_eq (by simp [hparams, hkey]), hvalue, hstart]
  · obtain ⟨kind, _, _, _, hsort, _⟩ := hinside.exists_step hne
    exact ⟨kind, hsort, fun other hother => hother.unique hsort⟩

/-- Words that begin as a number or a keyword does, and a keyword for a key. -/
def mixedWords : String := "\x7b\x7bf 1.2.3 trueish 1abc -2.5 null=1\x7d\x7d"

/-- None of the words is split, and the first one after the callee is a path. -/
theorem words_are_whole_mixedWords :
    (ofText mixedWords).tokens.map (fun token => (token.kind, token.lexeme.value)) =
      [(.openCurly, "\x7b\x7b"), (.path, "f"), (.path, "1.2.3"), (.path, "trueish"),
        (.path, "1abc"), (.number, "-2.5"), (.hashKey, "null"), (.number, "1"),
        (.closeCurly, "\x7d\x7d")] ∧
    (∀ token ∈ (ofText mixedWords).tokens, token.kind ∈ Kind.words →
      token.lexeme.value.toList = wordAt (mixedWords.toList.drop token.start)) ∧
    WordSort (mixedWords.toList.drop 4) .path := by
  obtain ⟨htokens, hstates⟩ := words_are_whole mixedWords
  refine ⟨by decide +kernel, fun token hmem hkind => (htokens token hmem hkind).2.1, ?_⟩
  let state : State := ⟨4, mixedWords.toList.drop 4, [⟨.expression .double, 0⟩], false⟩
  have hword : wordAt state.rest = "1.2.3".toList := by decide
  have hstep : state.step = .emit .path "1.2.3".toList 5 state.modes := by rfl
  obtain ⟨-, hsorts⟩ := hstates state ⟨_, _, _, rfl⟩ (by rw [hword]; decide)
  exact (hsorts .path).2 ⟨_, _, hstep, fun _ => hword.symm, fun _ => by rw [hword]; rfl⟩

end Scan

end TemplateUsage
