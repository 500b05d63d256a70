import TemplateUsage.Proofs.Scan.Lookahead

set_option autoImplicit false

/-!
# Exchanging what follows

What follows a token may be exchanged for another text that breaks words in the same way
(`Exchange`): blanks for other blanks, or a text in which a mark `~` is put beside braces.
Both begin with a character that no word goes on with. A pattern that finds something
within `read` finds the same when the text after `read` is exchanged, and one that finds
nothing finds nothing. Main statement: `Exchange.wordStep?_eq`.
-/

namespace TemplateUsage.Scan

/-! ## Breaks -/

/-- Characters at which every word ends. -/
def isBreak (c : Char) : Bool := Text.isBlank c || ['\x7b', '\x7d', '~'].contains c

/-- Whether a text begins with a blank. -/
def startsBlank (cs : List Char) : Bool := cs.head?.any Text.isBlank

/-- The text begins with a break. -/
def Breaks (cs : List Char) : Prop := ∃ c rest, cs = c :: rest ∧ isBreak c = true

/-- A break is a blank, a brace or a mark. -/
theorem isBreak_cases {c : Char} (h : isBreak c = true) :
    Text.isBlank c = true ∨ c = '\x7b' ∨ c = '\x7d' ∨ c = '~' := by
  simpa [isBreak] using h

theorem ne_of_isBreak {c d : Char} (hc : isBreak c = true) (hd : isBreak d = false) : c ≠ d := by
  rintro rfl
  rw [hc] at hd
  cases hd

theorem isPathChar_of_isBreak {c : Char} (h : isBreak c = true) : isPathChar c = false := by
  rcases isBreak_cases h with hblank | rfl | rfl | rfl
  · rw [isPathChar, hblank]
    rfl
  · rfl
  · rfl
  · rfl

theorem isKeyChar_of_isBreak {c : Char} (h : isBreak c = true) : isKeyChar c = false := by
  rw [isKeyChar, isPathChar_of_isBreak h]
  rfl

/-- No blank is a digit of any script. -/
theorem isDigit_of_isBlank {c : Char} (h : Text.isBlank c = true) : Text.isDigit c = false := by
  have hcode : c.toNat ∈ [9, 10, 11, 12, 13, 28, 29, 30, 31, 32, 0x85, 0xa0, 0x1680, 0x2000, 0x2001,
      0x2002, 0x2003, 0x2004, 0x2005, 0x2006, 0x2007, 0x2008, 0x2009, 0x200a, 0x2028, 0x2029,
      0x202f, 0x205f, 0x3000] := by
    simp only [Text.isBlank, Bool.or_eq_true, Bool.and_eq_true, decide_eq_true_eq, beq_iff_eq] at h
    simp only [List.mem_cons, List.not_mem_nil, or_false]
    omega
  rw [Text.isDigit, Text.digitValue?, Option.isSome_map]
  revert hcode
  generalize c.toNat = code
  revert code
  decide

theorem isDigit_of_isBreak {c : Char} (h : isBreak c = true) : Text.isDigit c = false := by
  rcases isBreak_cases h with hblank | rfl | rfl | rfl
  · exact isDigit_of_isBlank hblank
  · decide
  · decide
  · decide

theorem startsTagName_of_isBreak {c : Char} (h : isBreak c = true) : startsTagName c = false := by
  rcases isBreak_cases h with hblank | rfl | rfl | rfl
  · have hne : ∀ d : Char, Text.isBlank d = false → (c == d) = false := by
      intro d hd
      rw [beq_eq_false_iff_ne]
      rintro rfl
      rw [hblank] at hd
      cases hd
    rw [startsTagName, isAlpha_of_isBlank hblank, hne _ rfl, hne _ rfl, hne _ rfl]
    rfl
  · rfl
  · rfl
  · rfl

theorem Breaks.head {cs : List Char} (h : Breaks cs) {p : Char → Bool}
    (hp : ∀ c, isBreak c = true → p c = false) : ∀ c ∈ cs.head?, p c = false := by
  obtain ⟨c, rest, rfl, hc⟩ := h
  rintro d ⟨⟩
  exact hp c hc

/-- A fixed text that begins otherwise does not start at a break. -/
theorem Breaks.startsWith_eq_false {cs : List Char} (h : Breaks cs) {d : Char}
    (hd : isBreak d = false) (rest : List Char) : startsWith (d :: rest) cs = false := by
  obtain ⟨c, tail, rfl, hc⟩ := h
  refine Scan.startsWith_eq_false fun more heq => ?_
  exact ne_of_isBreak hc hd (List.cons.inj heq).1

/-! ## Fronts up to a break -/

section

variable {read after : List Char} {p : Char → Bool}

/-- A run that does not go on after `read` ends in it. -/
theorem takeWhile_append_of_head (h : ∀ c ∈ after.head?, p c = false) :
    (read ++ after).takeWhile p = read.takeWhile p := by
  induction read with
  | nil => exact takeWhile_run (List.forall_mem_nil _) h
  | cons c rest ih => rw [List.cons_append, List.takeWhile_cons, List.takeWhile_cons, ih]

theorem dropWhile_append_of_head (h : ∀ c ∈ after.head?, p c = false) :
    (read ++ after).dropWhile p = read.dropWhile p ++ after := by
  induction read with
  | nil => exact dropWhile_run (List.forall_mem_nil _) h
  | cons c rest ih =>
      rw [List.cons_append, List.dropWhile_cons, List.dropWhile_cons, ih]
      split <;> rfl

theorem path?_of_breaks (h : Breaks after) : path? (read ++ after) = path? read := by
  rw [path?, path?, takeWhile_append_of_head (h.head fun _ => isPathChar_of_isBreak)]

theorem decimalRun_of_breaks (h : Breaks after) : decimalRun (read ++ after) = decimalRun read := by
  have hdigit := h.head (p := Text.isDigit) fun _ => isDigit_of_isBreak
  rw [decimalRun, decimalRun, takeWhile_append_of_head hdigit, dropWhile_append_of_head hdigit]
  cases read.dropWhile Text.isDigit with
  | nil =>
      obtain ⟨c, rest, rfl, hc⟩ := h
      have hdot : c ≠ '.' := ne_of_isBreak hc rfl
      simp [hdot]
  | cons d tail =>
      by_cases hdot : d = '.'
      · subst hdot
        simp only [List.cons_append, takeWhile_append_of_head hdigit]
      · simp [hdot]

theorem endsWord_of_breaks (h : Breaks after) :
    endsWord after = !startsWith ['\x7b'] after := by
  obtain ⟨c, rest, rfl, hc⟩ := h
  rcases isBreak_cases hc with hblank | rfl | rfl | rfl
  · have hbrace : c ≠ '\x7b' := by
      rintro rfl
      cases hblank
    rw [endsWord, hblank, Scan.startsWith_eq_false fun more heq => hbrace (List.cons.inj heq).1]
    rfl
  · rfl
  · rfl
  · rfl

end

/-! ## Exchanges -/

/-- The second find is the first one, if that is no longer than `length`; and there is none
if there was none. -/
def Keeps (length : Nat) (first second : Option Found) : Prop :=
  (first = none → second = none) ∧
    ∀ found, first = some found → found.width ≤ length → second = some found

theorem Keeps.of_eq {length : Nat} {first second : Option Found} (h : second = first) :
    Keeps length first second := by
  subst h
  exact ⟨id, fun _ hfound _ => hfound⟩

/-- Fixed texts that go on with no break but with braces that open. -/
def isSteady : List Char → Bool
  | [] | ['\x7b'] | ['\x7b', '\x7b'] => true
  | c :: rest => !isBreak c && isSteady rest

theorem isSteady_of_cons {c : Char} {rest : List Char} (h : isSteady (c :: rest) = true) :
    isSteady rest = true := by
  unfold isSteady at h
  split at h
  · rename_i heq
    cases heq
  · rename_i heq
    cases heq
    rfl
  · rename_i heq
    cases heq
    rfl
  · rename_i heq
    cases heq
    exact (Bool.and_eq_true_iff.1 h).2

theorem forall_of_any_isBreak {word : List Char} (h : word.any isBreak = false) :
    ∀ c ∈ word, isBreak c = false :=
  fun c hc => Bool.eq_false_iff.2 (List.any_eq_false.1 h c hc)

theorem isSteady_of_forall {word : List Char} (h : ∀ c ∈ word, isBreak c = false) :
    isSteady word = true := by
  induction word with
  | nil => rfl
  | cons c rest ih =>
      obtain ⟨hc, hrest⟩ := List.forall_mem_cons.1 h
      unfold isSteady
      split
      · rfl
      · rfl
      · rfl
      · rename_i heq
        cases heq
        rw [hc, ih hrest]
        rfl

/-- The texts break words in the same way: a brace that opens stands for the same, blanks
for blanks before the same text; and the second ends no more than the first. -/
structure Exchange (after other : List Char) : Prop where
  after_breaks : Breaks after
  other_breaks : Breaks other
  brace : startsWith ['\x7b'] other = startsWith ['\x7b'] after
  braces : startsWith ['\x7b', '\x7b'] other = startsWith ['\x7b', '\x7b'] after
  blanks : startsBlank other = startsBlank after
  rest : startsBlank after = true →
    other.dropWhile Text.isBlank = after.dropWhile Text.isBlank
  bar : '|' ∈ other → '|' ∈ after
  closing : ∀ read, breakAt (stopAt ['\x7d', '\x7d']) (read ++ after) = none →
    breakAt (stopAt ['\x7d', '\x7d']) (read ++ other) = none

namespace Exchange

variable {read after other : List Char}

theorem startsWith_of_isSteady (h : Exchange after other) {start : List Char}
    (hstart : isSteady start = true) : startsWith start other = startsWith start after := by
  unfold isSteady at hstart
  split at hstart
  · rfl
  · exact h.brace
  · exact h.braces
  · rw [Bool.and_eq_true, Bool.not_eq_true'] at hstart
    rw [h.other_breaks.startsWith_eq_false hstart.1, h.after_breaks.startsWith_eq_false hstart.1]

/-- A fixed text starts in `read` and goes on steadily after it. -/
theorem startsWith_append_eq (h : Exchange after other) {start : List Char}
    (hstart : isSteady start = true) :
    startsWith start (read ++ other) = startsWith start (read ++ after) := by
  induction read generalizing start with
  | nil => exact h.startsWith_of_isSteady hstart
  | cons c rest ih =>
      cases start with
      | nil => rfl
      | cons d start =>
          have hcons : ∀ more : List Char, startsWith (d :: start) (c :: rest ++ more) =
              (d == c && startsWith start (rest ++ more)) := fun _ => rfl
          rw [hcons, hcons, ih (isSteady_of_cons hstart)]

/-- What a text starts with is the same after an exchange, if the start goes on with no break
but with braces that open. -/
theorem startsWith_eq (h : Exchange after other) (hne : read ≠ []) {start : List Char}
    (hstart : isSteady start.tail = true) :
    startsWith start (read ++ other) = startsWith start (read ++ after) := by
  obtain ⟨c, rest, rfl⟩ := List.exists_cons_of_ne_nil hne
  cases start with
  | nil => rfl
  | cons d start =>
      have hcons : ∀ more : List Char, startsWith (d :: start) (c :: rest ++ more) =
          (d == c && startsWith start (rest ++ more)) := fun _ => rfl
      have hstart : isSteady start = true := hstart
      rw [hcons, hcons, h.startsWith_append_eq hstart]

/-- The blanks at the front of `read`, or from its end on. -/
theorem dropWhile_cases (h : Exchange after other) (read : List Char) :
    (read.dropWhile Text.isBlank ≠ [] ∧
      ∀ more, (read ++ more).dropWhile Text.isBlank = read.dropWhile Text.isBlank ++ more) ∨
    (Blanks read ∧
      ((read ++ other).dropWhile Text.isBlank = (read ++ after).dropWhile Text.isBlank ∨
        ∀ more ∈ [after, other], ∃ c rest, (read ++ more).dropWhile Text.isBlank = c :: rest ∧
          isBreak c = true)) := by
  cases hread : read.dropWhile Text.isBlank with
  | cons c rest =>
      refine .inl ⟨List.cons_ne_nil c rest, fun more => ?_⟩
      rw [List.dropWhile_append, hread]
      rfl
  | nil =>
      have hblanks : Blanks read := List.dropWhile_eq_nil_iff.1 hread
      refine .inr ⟨hblanks, ?_⟩
      rw [List.dropWhile_append_of_pos hblanks, List.dropWhile_append_of_pos hblanks]
      cases hafter : startsBlank after with
      | true => exact .inl (h.rest hafter)
      | false =>
          have hkeep : ∀ more : List Char, Breaks more → startsBlank more = false →
              ∃ c rest, (read ++ more).dropWhile Text.isBlank = c :: rest ∧ isBreak c = true := by
            rintro _ ⟨c, rest, rfl, hc⟩ hblank
            refine ⟨c, rest, ?_, hc⟩
            have hblank : Text.isBlank c = false := hblank
            rw [List.dropWhile_append_of_pos hblanks, List.dropWhile_cons, hblank]
            rfl
          refine .inr (List.forall_mem_cons.2 ⟨?_, List.forall_mem_singleton.2 ?_⟩)
          · exact hkeep after h.after_breaks hafter
          · exact hkeep other h.other_breaks (h.blanks.trans hafter)

/-- A word without breaks that starts in `read` ends there. -/
theorem length_le_of_startsWith (hafter : Breaks after) {word : List Char}
    (hword : ∀ c ∈ word, isBreak c = false) (h : startsWith word (read ++ after) = true) :
    word.length ≤ read.length := by
  by_contra hlong
  rw [startsWith_iff] at h
  obtain ⟨more, rfl⟩ :=
    List.prefix_of_prefix_length_le (List.prefix_append read after) h (by omega)
  obtain ⟨c, rest, rfl, hc⟩ := hafter
  rw [List.prefix_append_right_inj] at h
  cases more with
  | nil => simp at hlong
  | cons d more =>
      have hd := hword d (List.mem_append_right _ List.mem_cons_self)
      exact ne_of_isBreak hc hd (List.cons_prefix_cons.1 h).1.symm

/-! ## Words -/

theorem endsWord_eq (h : Exchange after other) :
    endsWord (read ++ other) = endsWord (read ++ after) := by
  cases read with
  | nil =>
      rw [List.nil_append, List.nil_append, endsWord_of_breaks h.other_breaks,
        endsWord_of_breaks h.after_breaks, h.brace]
  | cons c rest => rfl

/-- Paths end at a break, so they are the same after an exchange. -/
theorem path?_eq (h : Exchange after other) : path? (read ++ other) = path? (read ++ after) := by
  rw [path?_of_breaks h.other_breaks, path?_of_breaks h.after_breaks]

theorem number?_eq (h : Exchange after other) (hne : read ≠ []) :
    number? (read ++ other) = number? (read ++ after) := by
  have hsign : ∀ more : List Char, signRun (read ++ more) = signRun read := by
    intro more
    obtain ⟨c, rest, rfl⟩ := List.exists_cons_of_ne_nil hne
    rfl
  have hfront : signRun read <+: read := ⟨_, signRun_append_drop read⟩
  have hvalue : signRun read ++ decimalRun (read.drop (signRun read).length) <+: read := by
    have hdigits := decimalRun_isPrefix (read.drop (signRun read).length)
    have hwhole := (List.prefix_append_right_inj (signRun read)).2 hdigits
    rwa [signRun_append_drop] at hwhole
  rw [number?, number?, hsign, hsign, List.drop_append_of_le_length hfront.length_le,
    List.drop_append_of_le_length hfront.length_le, decimalRun_of_breaks h.other_breaks,
    decimalRun_of_breaks h.after_breaks, List.drop_append_of_le_length hvalue.length_le,
    List.drop_append_of_le_length hvalue.length_le, h.endsWord_eq]

theorem word?_eq (h : Exchange after other) {word : List Char}
    (hword : ∀ c ∈ word, isBreak c = false) :
    word? word (read ++ other) = word? word (read ++ after) := by
  rw [word?, word?, h.startsWith_append_eq (isSteady_of_forall hword)]
  cases hafter : startsWith word (read ++ after) with
  | false => rfl
  | true =>
      have hle := length_le_of_startsWith h.after_breaks hword hafter
      rw [List.drop_append_of_le_length hle, List.drop_append_of_le_length hle, h.endsWord_eq]

theorem head?_append_ne_equals (hafter : Breaks after) :
    (read ++ after).head? = some '=' ↔ read.head? = some '=' := by
  cases read with
  | nil =>
      obtain ⟨c, rest, rfl, hc⟩ := hafter
      have hne : c ≠ '=' := ne_of_isBreak hc rfl
      simp [hne]
  | cons c rest => exact Iff.rfl

/-- A key is found up to its equals sign. -/
theorem hashKey?_eq {cs : List Char} :
    hashKey? cs =
      match (cs.dropWhile isKeyChar).dropWhile Text.isBlank with
      | '=' :: next =>
          if (cs.takeWhile isKeyChar).isEmpty || next.head? = some '=' then none
          else some ⟨cs.takeWhile isKeyChar, (cs.takeWhile isKeyChar).length +
            ((cs.dropWhile isKeyChar).takeWhile Text.isBlank).length + 1⟩
      | _ => none := rfl

/-- A key is found within `read`, or from its end on, before and after. -/
theorem hashKey?_keeps (h : Exchange after other) :
    Keeps read.length (hashKey? (read ++ after)) (hashKey? (read ++ other)) := by
  have hkey : ∀ more ∈ [after, other],
      (read ++ more).takeWhile isKeyChar = read.takeWhile isKeyChar ∧
        (read ++ more).dropWhile isKeyChar = read.dropWhile isKeyChar ++ more := by
    have hbreak : ∀ more : List Char, Breaks more →
        (read ++ more).takeWhile isKeyChar = read.takeWhile isKeyChar ∧
          (read ++ more).dropWhile isKeyChar = read.dropWhile isKeyChar ++ more := by
      intro more hmore
      have hhead := hmore.head (p := isKeyChar) fun _ => isKeyChar_of_isBreak
      exact ⟨takeWhile_append_of_head hhead, dropWhile_append_of_head hhead⟩
    exact List.forall_mem_cons.2 ⟨hbreak after h.after_breaks,
      List.forall_mem_singleton.2 (hbreak other h.other_breaks)⟩
  obtain ⟨⟨htakeAfter, hdropAfter⟩, hkeyOther⟩ := List.forall_mem_cons.1 hkey
  obtain ⟨htakeOther, hdropOther⟩ := List.forall_mem_singleton.1 hkeyOther
  rw [hashKey?_eq, hashKey?_eq, htakeAfter, hdropAfter, htakeOther, hdropOther]
  have hlength : (read.takeWhile isKeyChar).length + (read.dropWhile isKeyChar).length =
      read.length := by
    rw [← List.length_append, List.takeWhile_append_dropWhile]
  rcases h.dropWhile_cases (read.dropWhile isKeyChar) with ⟨hne, hdrop⟩ | ⟨hblanks, hsame | hbreaks⟩
  · -- the blanks end in `read`, and what follows an equals sign there does not begin with one
    obtain ⟨c, rest, hcons⟩ := List.exists_cons_of_ne_nil hne
    have hc : Text.isBlank c = false := by
      have hhead := List.head?_dropWhile_not Text.isBlank (read.dropWhile isKeyChar)
      rw [hcons] at hhead
      simpa using hhead
    have hmem : c ∈ read.dropWhile isKeyChar := by
      have hsub := (List.dropWhile_sublist (l := read.dropWhile isKeyChar) Text.isBlank).subset
      exact hsub (hcons ▸ List.mem_cons_self)
    rw [hdrop, hdrop, hcons, takeWhile_append_of_mem after hmem hc,
      takeWhile_append_of_mem other hmem hc]
    apply Keeps.of_eq
    by_cases hequals : c = '='
    · subst hequals
      simp only [List.cons_append, head?_append_ne_equals h.after_breaks,
        head?_append_ne_equals h.other_breaks]
    · simp [hequals]
  · -- the blanks go on after `read`, so what is found reaches beyond it
    rw [hsame]
    split
    · split
      · exact .of_eq rfl
      · refine ⟨nofun, ?_⟩
        rintro found ⟨⟩ hwidth
        rw [List.takeWhile_append_of_pos hblanks, List.length_append] at hwidth
        dsimp only at hwidth
        omega
    · exact .of_eq rfl
  · -- a break follows the blanks at once
    obtain ⟨⟨c, rest, hafter, hc⟩, hbreaks⟩ := List.forall_mem_cons.1 hbreaks
    obtain ⟨d, tail, hother, hd⟩ := List.forall_mem_singleton.1 hbreaks
    have hcne : c ≠ '=' := ne_of_isBreak hc rfl
    have hdne : d ≠ '=' := ne_of_isBreak hd rfl
    rw [hafter, hother]
    apply Keeps.of_eq
    simp [hcne, hdne]

/-- When block parameters are found. -/
theorem blockParams?_isSome {cs : List Char} :
    (blockParams? cs).isSome = true ↔
      ∃ rest names, cs = 'a' :: 's' :: rest ∧ startsBlank rest = true ∧
        rest.dropWhile Text.isBlank = '|' :: names ∧ '|' ∈ names := by
  have hempty : ∀ rest : List Char, (rest.takeWhile Text.isBlank).isEmpty = !startsBlank rest := by
    intro rest
    cases rest with
    | nil => rfl
    | cons c rest =>
        rw [List.takeWhile_cons]
        show _ = !Text.isBlank c
        cases Text.isBlank c <;> rfl
  constructor
  · intro h
    unfold blockParams? at h
    split at h
    · rename_i rest
      dsimp only at h
      split at h
      · rename_i names hnames
        split at h
        · cases h
        · rename_i hblanks
          split at h
          · rename_i tail htail
            rw [hempty, Bool.not_eq_true', Bool.not_eq_false] at hblanks
            refine ⟨rest, names, rfl, hblanks, hnames, ?_⟩
            exact (List.dropWhile_sublist _).subset (htail ▸ List.mem_cons_self)
          · cases h
      · cases h
    · cases h
  · rintro ⟨rest, names, rfl, hblank, hrest, hbar⟩
    -- the names end at the first bar
    have hnames : ∃ tail, names.dropWhile (· != '|') = '|' :: tail := by
      cases hdrop : names.dropWhile (· != '|') with
      | nil =>
          have hbars := List.dropWhile_eq_nil_iff.1 hdrop '|' hbar
          cases hbars
      | cons c tail =>
          have hhead := List.head?_dropWhile_not (· != '|') names
          rw [hdrop] at hhead
          obtain rfl : c = '|' := by simpa using hhead
          exact ⟨tail, rfl⟩
    obtain ⟨tail, htail⟩ := hnames
    simp only [blockParams?, hrest, hempty, hblank, htail]
    rfl

/-- Block parameters are not found after an exchange if they were not before. -/
theorem blockParams?_keeps (h : Exchange after other) (hne : read ≠ []) :
    Keeps read.length (blockParams? (read ++ after)) (blockParams? (read ++ other)) := by
  refine ⟨fun hnone => ?_, fun found hfound hwidth => blockParams?_local.congr hfound hwidth other⟩
  by_contra hsome
  rw [← ne_eq, ← Option.isSome_iff_ne_none, blockParams?_isSome] at hsome
  obtain ⟨rest, names, hcs, hblank, hrest, hbar⟩ := hsome
  have hfound : (blockParams? (read ++ after)).isSome = true := by
    rw [blockParams?_isSome]
    match read, hne with
    | [c], _ =>
        obtain ⟨d, tail, rfl, hd⟩ := h.other_breaks
        simp only [List.cons_append, List.nil_append, List.cons.injEq] at hcs
        exact absurd hcs.2.1 (ne_of_isBreak hd rfl)
    | c :: d :: left, _ =>
        simp only [List.cons_append, List.cons.injEq] at hcs
        obtain ⟨rfl, rfl, rfl⟩ := hcs
        have hstart : startsBlank (left ++ after) = true := by
          cases left with
          | nil => exact h.blanks.symm.trans hblank
          | cons e left => exact hblank
        rcases h.dropWhile_cases left with ⟨hleft, hdrop⟩ | ⟨-, hsame | hbreaks⟩
        · -- the first bar stands in `read`
          rw [hdrop] at hrest
          obtain ⟨e, more, hcons⟩ := List.exists_cons_of_ne_nil hleft
          rw [hcons, List.cons_append, List.cons.injEq] at hrest
          obtain ⟨rfl, rfl⟩ := hrest
          refine ⟨left ++ after, more ++ after, rfl, hstart, ?_, ?_⟩
          · rw [hdrop, hcons, List.cons_append]
          · rw [List.mem_append] at hbar ⊢
            exact hbar.imp_right h.bar
        · exact ⟨left ++ after, names, rfl, hstart, hsame ▸ hrest, hbar⟩
        · obtain ⟨-, hbreaks⟩ := List.forall_mem_cons.1 hbreaks
          obtain ⟨e, tail, hother, he⟩ := List.forall_mem_singleton.1 hbreaks
          rw [hother, List.cons.injEq] at hrest
          exact absurd hrest.1 (ne_of_isBreak he rfl)
  rw [hnone] at hfound
  cases hfound

/-- A word that ends in `read` is found again, be it a literal, a number or a path. -/
theorem plainWord?_exchange (h : Exchange after other) (hne : read ≠ []) {kind : Kind}
    {found : Found} (hword : plainWord? (read ++ after) = some (kind, found))
    (hwidth : found.width ≤ read.length) : plainWord? (read ++ other) = some (kind, found) := by
  obtain ⟨hnone, hsome⟩ : Keeps read.length (hashKey? (read ++ after)) (hashKey? (read ++ other)) :=
    h.hashKey?_keeps
  cases hkey : hashKey? (read ++ after) with
  | some key =>
      rw [plainWord?, hkey] at hword
      cases hword
      rw [plainWord?, hsome _ hkey hwidth]
      rfl
  | none =>
      have hkeyword : ∀ {word : List Char}, word.any isBreak = false →
          word? word (read ++ other) = word? word (read ++ after) :=
        fun hbreak => h.word?_eq (forall_of_any_isBreak hbreak)
      rw [plainWord?, hkey] at hword
      rw [plainWord?, hnone hkey, h.number?_eq hne, h.path?_eq]
      simp only [keywords, List.findSome?_cons, List.findSome?_nil] at hword ⊢
      rw [hkeyword rfl, hkeyword rfl, hkeyword rfl, hkeyword rfl]
      exact hword

/-- A word within `read` is the same after an exchange. -/
theorem wordStep?_eq (h : Exchange after other) (hne : read ≠ []) {kind : Kind} {found : Found}
    (hword : wordStep? (read ++ after) = some (kind, found)) (hwidth : found.width ≤ read.length) :
    wordStep? (read ++ other) = some (kind, found) :=
  wordStep?_congr hne (h.blockParams?_keeps hne).1
    (fun hplain => h.plainWord?_exchange hne hplain hwidth) hword hwidth

end Exchange

/-! ## Closing braces -/

theorem breakAt_stopAt_eq_none_iff {stop cs : List Char} :
    breakAt (stopAt stop) cs = none ↔ ¬ stop <:+: cs := by
  have hstop : ∀ more : List Char, stopAt stop more = none ↔ ¬ stop <+: more := by
    intro more
    rw [← startsWith_iff, stopAt]
    split <;> simp_all
  induction cs with
  | nil => rw [breakAt, Option.map_eq_none_iff, hstop, List.prefix_nil, List.infix_nil]
  | cons c rest ih =>
      rw [List.infix_cons_iff, not_or, ← hstop, breakAt]
      cases stopAt stop (c :: rest) <;> simp [ih]

/-- Closing braces stand on one side of any other character. -/
theorem braces_infix_iff {c : Char} (hc : c ≠ '\x7d') {front back : List Char} :
    ['\x7d', '\x7d'] <:+: front ++ c :: back ↔
      ['\x7d', '\x7d'] <:+: front ∨ ['\x7d', '\x7d'] <:+: back := by
  induction front with
  | nil => simp [List.infix_cons_iff, hc.symm]
  | cons d rest ih =>
      rw [List.cons_append, List.infix_cons_iff, List.infix_cons_iff, ih, or_assoc]
      -- the braces at the front do not reach the character
      refine or_congr ?_ Iff.rfl
      cases rest with
      | nil => simp [hc.symm]
      | cons e rest => simp

end TemplateUsage.Scan
