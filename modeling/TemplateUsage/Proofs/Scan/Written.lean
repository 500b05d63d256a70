import TemplateUsage.Scan.Step

set_option autoImplicit false

/-!
# How tokens are written

`Written kind value slice` says that `slice` is a way to write a token of this
kind with this value: the value and the delimiters of the kind around it. A slice
has at most one value (`Written.value_unique`), so a slice gives its value back
and a value gives its slice up to the blanks and marks that the kind allows.
-/

namespace TemplateUsage.Scan

/-! ## Written forms -/

/-- Texts of blanks only. -/
def Blanks (cs : List Char) : Prop := ∀ c ∈ cs, Text.isBlank c = true

/-- The optional mark beside curly braces. -/
def Mark (cs : List Char) : Prop := cs = [] ∨ cs = ['~']

/-- How a token is written. -/
def Written (kind : Kind) (value slice : List Char) : Prop :=
  match kind with
  | .text =>
      (slice = value ∧ ¬ ['\\', '\x7b', '\x7b'] <+: slice) ∨
        (slice = '\\' :: value ∧ ['\x7b', '\x7b'] <+: value)
  | .string => ∃ quote, (quote = '"' ∨ quote = '\'') ∧ slice = quote :: value ++ [quote]
  | .hashKey =>
      ∃ blanks, Blanks blanks ∧ (∀ c ∈ value, isKeyChar c = true) ∧
        slice = value ++ blanks ++ ['=']
  | .blockParams =>
      ∃ blanks, blanks ≠ [] ∧ Blanks blanks ∧
        slice = ['a', 's'] ++ blanks ++ '|' :: value ++ ['|']
  | .startTag => slice = '<' :: value
  | .endTag =>
      ∃ before after, Blanks before ∧ Blanks after ∧ value ≠ [] ∧
        (∀ c ∈ value, isEndNameChar c = true) ∧
        slice = ['<', '/'] ++ before ++ value ++ after ++ ['>']
  | .htmlComment => slice = ['<', '!', '-', '-'] ++ value ++ ['-', '-', '>']
  | .curlyComment =>
      ∃ left right, Mark left ∧ Mark right ∧
        ((slice = ['\x7b', '\x7b'] ++ left ++ '!' :: value ++ right ++ ['\x7d', '\x7d'] ∧
            ¬ ['-', '-'] <+: value ∧ (right = [] → value.getLast? ≠ some '~')) ∨
          slice = ['\x7b', '\x7b'] ++ left ++ ['!', '-', '-'] ++ value ++ ['-', '-'] ++ right ++
            ['\x7d', '\x7d'])
  | _ => slice = value

/-! ## A slice has one value -/

theorem not_isBlank_of_isKeyChar {c : Char} (h : isKeyChar c = true) : Text.isBlank c = false := by
  simp only [isKeyChar, isPathChar, Bool.and_eq_true, Bool.not_eq_true', Bool.or_eq_false_iff] at h
  exact h.1.1

theorem not_isBlank_of_isEndNameChar {c : Char} (h : isEndNameChar c = true) :
    Text.isBlank c = false := by
  simp only [isEndNameChar, Bool.not_eq_true', Bool.or_eq_false_iff] at h
  exact h.1

theorem isAlpha_of_isBlank {c : Char} (h : Text.isBlank c = true) : c.isAlpha = false := by
  simp only [Text.isBlank, Bool.or_eq_true, Bool.and_eq_true, decide_eq_true_eq, beq_iff_eq] at h
  have hval : c.toNat = c.val.toNat := rfl
  rw [hval] at h
  change (decide (c.val ≥ 'A'.val ∧ c.val ≤ 'Z'.val) ||
    (decide (c.val ≥ 'a'.val) && decide (c.val ≤ 'z'.val))) = false
  simp only [Bool.or_eq_false_iff, Bool.and_eq_false_iff, decide_eq_false_iff_not, ge_iff_le,
    UInt32.le_iff_toNat_le, Char.reduceVal, UInt32.reduceToNat]
  constructor <;> omega

/-- A run of characters of one sort, up to a character of another, is found by `takeWhile`. -/
theorem takeWhile_run {p : Char → Bool} {run rest : List Char} (hrun : ∀ c ∈ run, p c = true)
    (hrest : ∀ c ∈ rest.head?, p c = false) : (run ++ rest).takeWhile p = run := by
  rw [List.takeWhile_append_of_pos hrun]
  cases rest with
  | nil => simp
  | cons c tail => simp [hrest c rfl]

/-- A run that ends where the property does is dropped as a whole. -/
theorem dropWhile_run {p : Char → Bool} {run rest : List Char} (hrun : ∀ c ∈ run, p c = true)
    (hrest : ∀ c ∈ rest.head?, p c = false) : (run ++ rest).dropWhile p = rest := by
  rw [List.dropWhile_append_of_pos hrun]
  cases rest with
  | nil => simp
  | cons c tail => simp [hrest c rfl]

theorem head?_blanks_append {p : Char → Bool} {blanks rest : List Char} (hblanks : Blanks blanks)
    (hp : ∀ c, Text.isBlank c = true → p c = false) (hrest : ∀ c ∈ rest.head?, p c = false) :
    ∀ c ∈ (blanks ++ rest).head?, p c = false := by
  cases blanks with
  | nil => exact hrest
  | cons b tail =>
      intro c hc
      simp only [List.cons_append, List.head?_cons, Option.mem_def, Option.some.injEq] at hc
      subst hc
      exact hp b (hblanks b (by simp))

/-- The value of a text can be told from what is written. -/
theorem text_value_unique {value value' slice : List Char} (h : Written .text value slice)
    (h' : Written .text value' slice) : value = value' := by
  -- the escaped form is told from the plain one by how the slice begins
  have hescape : ∀ v : List Char, ['\x7b', '\x7b'] <+: v → ['\\', '\x7b', '\x7b'] <+: '\\' :: v :=
    fun v hv => List.prefix_cons_inj _ |>.2 hv
  rcases h with ⟨rfl, hplain⟩ | ⟨rfl, hcurly⟩ <;> rcases h' with ⟨h', hplain'⟩ | ⟨h', hcurly'⟩
  · exact h'
  · subst h'
    exact absurd (hescape _ hcurly') hplain
  · subst h'
    exact absurd (hescape _ hcurly) hplain'
  · exact List.tail_eq_of_cons_eq h'

theorem string_value_unique {value value' slice : List Char} (h : Written .string value slice)
    (h' : Written .string value' slice) : value = value' := by
  obtain ⟨quote, -, rfl⟩ := h
  obtain ⟨quote', -, heq⟩ := h'
  simp only [List.cons_append, List.cons.injEq] at heq
  obtain ⟨rfl, heq⟩ := heq
  exact List.append_cancel_right heq

theorem hashKey_value_unique {value value' slice : List Char} (h : Written .hashKey value slice)
    (h' : Written .hashKey value' slice) : value = value' := by
  have hkey : ∀ v, Written .hashKey v slice → slice.takeWhile isKeyChar = v := by
    rintro v ⟨blanks, hblanks, hchars, rfl⟩
    rw [List.append_assoc]
    refine takeWhile_run hchars (head?_blanks_append hblanks (fun c hc => ?_) ?_)
    · exact eq_false_of_ne_true fun hk => by simp [not_isBlank_of_isKeyChar hk] at hc
    · rintro _ ⟨⟩
      decide
  rw [← hkey value h, hkey value' h']

theorem blockParams_value_unique {value value' slice : List Char}
    (h : Written .blockParams value slice) (h' : Written .blockParams value' slice) :
    value = value' := by
  obtain ⟨blanks, -, hblanks, rfl⟩ := h
  obtain ⟨blanks', -, hblanks', heq⟩ := h'
  have hbar : ∀ v : List Char, ∀ c ∈ ('|' :: v ++ ['|']).head?, Text.isBlank c = false := by
    intro v c hc
    simp only [List.cons_append, List.head?_cons, Option.mem_def, Option.some.injEq] at hc
    subst hc
    decide
  simp only [List.append_assoc] at heq
  have heq := List.append_cancel_left heq
  have htake := congrArg (List.takeWhile Text.isBlank) heq
  rw [takeWhile_run hblanks (hbar _), takeWhile_run hblanks' (hbar _)] at htake
  subst htake
  have hvalue := List.append_cancel_left heq
  simp only [List.cons_append, List.cons.injEq, true_and] at hvalue
  exact List.append_cancel_right hvalue

theorem endTag_value_unique {value value' slice : List Char} (h : Written .endTag value slice)
    (h' : Written .endTag value' slice) : value = value' := by
  have hname : ∀ v, Written .endTag v slice →
      ((slice.drop 2).dropWhile Text.isBlank).takeWhile isEndNameChar = v := by
    rintro v ⟨before, after, hbefore, hafter, hne, hchars, rfl⟩
    have hhead : ∀ c ∈ (v ++ (after ++ ['>'])).head?, Text.isBlank c = false := by
      cases v with
      | nil => exact absurd rfl hne
      | cons first tail =>
          intro c hc
          simp only [List.cons_append, List.head?_cons, Option.mem_def, Option.some.injEq] at hc
          subst hc
          exact not_isBlank_of_isEndNameChar (hchars first (by simp))
    have hdrop : (['<', '/'] ++ before ++ v ++ after ++ ['>']).drop 2 =
        before ++ (v ++ (after ++ ['>'])) := by simp
    rw [hdrop, dropWhile_run hbefore hhead]
    refine takeWhile_run hchars (head?_blanks_append hafter (fun c hc => ?_) ?_)
    · exact eq_false_of_ne_true fun hk => by simp [not_isBlank_of_isEndNameChar hk] at hc
    · rintro _ ⟨⟩
      decide
  rw [← hname value h, hname value' h']

/-- The value of a comment is what stands between its delimiters. -/
theorem htmlComment_value_unique {value value' slice : List Char}
    (h : Written .htmlComment value slice) (h' : Written .htmlComment value' slice) :
    value = value' := by
  have heq : ['<', '!', '-', '-'] ++ value ++ ['-', '-', '>'] =
      ['<', '!', '-', '-'] ++ value' ++ ['-', '-', '>'] := h.symm.trans h'
  exact List.append_cancel_left (List.append_cancel_right heq)

/-- After the braces and the mark, a comment goes on with its exclamation mark. -/
theorem mark_unique {left left' rest rest' : List Char} (hleft : Mark left) (hleft' : Mark left')
    (heq : left ++ '!' :: rest = left' ++ '!' :: rest') : left = left' ∧ rest = rest' := by
  rcases hleft with rfl | rfl <;> rcases hleft' with rfl | rfl <;> simp_all

/-- Before the closing braces of a short comment a mark is read as a mark. -/
theorem short_value_unique {value value' right right' : List Char} (hright : Mark right)
    (hright' : Mark right') (hlast : right = [] → value.getLast? ≠ some '~')
    (hlast' : right' = [] → value'.getLast? ≠ some '~')
    (heq : value ++ right = value' ++ right') : value = value' := by
  rcases hright with rfl | rfl <;> rcases hright' with rfl | rfl
  · simpa using heq
  · rw [List.append_nil] at heq
    exact absurd (by rw [heq]; simp) (hlast rfl)
  · rw [List.append_nil] at heq
    exact absurd (by rw [← heq]; simp) (hlast' rfl)
  · exact List.append_cancel_right heq

/-- Whether a mark follows the dashes can be told, since a mark is no dash. -/
theorem long_value_unique {value value' right right' : List Char} (hright : Mark right)
    (hright' : Mark right')
    (heq : value ++ ['-', '-'] ++ right = value' ++ ['-', '-'] ++ right') : value = value' := by
  have hlast := congrArg List.getLast? heq
  rcases hright with rfl | rfl <;> rcases hright' with rfl | rfl
  · simpa using heq
  · simp [List.getLast?_append] at hlast
  · simp [List.getLast?_append] at hlast
  · exact List.append_cancel_right (List.append_cancel_right heq)

/-- A text that starts with two hyphens is not that of a short comment. -/
theorem hyphens_of_append {value right rest : List Char} (hright : Mark right)
    (heq : value ++ right ++ ['\x7d', '\x7d'] = '-' :: '-' :: rest) : ['-', '-'] <+: value := by
  match value with
  | [] => rcases hright with rfl | rfl <;> simp at heq
  | [c] => rcases hright with rfl | rfl <;> simp at heq
  | c :: d :: tail =>
      simp only [List.cons_append, List.cons.injEq] at heq
      obtain ⟨rfl, rfl, -⟩ := heq
      exact ⟨tail, rfl⟩

/-- The value of a comment in braces is found whatever form it has and whatever marks. -/
theorem curlyComment_value_unique {value value' slice : List Char}
    (h : Written .curlyComment value slice) (h' : Written .curlyComment value' slice) :
    value = value' := by
  obtain ⟨left, right, hleft, hright, hslice⟩ := h
  obtain ⟨left', right', hleft', hright', hslice'⟩ := h'
  have hbody : ∀ {a a' b b' : List Char}, Mark a → Mark a' →
      ['\x7b', '\x7b'] ++ a ++ '!' :: b = ['\x7b', '\x7b'] ++ a' ++ '!' :: b' → b = b' := by
    intro a a' b b' ha ha' heq
    simp only [List.append_assoc] at heq
    exact (mark_unique ha ha' (List.append_cancel_left heq)).2
  rcases hslice with ⟨rfl, hopen, hlast⟩ | rfl <;> rcases hslice' with ⟨heq, hopen', hlast'⟩ | heq
  · have heq := hbody hleft hleft' (by simpa only [List.append_assoc, List.cons_append] using heq)
    simp only [← List.append_assoc] at heq
    exact short_value_unique hright hright' hlast hlast' (List.append_cancel_right heq)
  · have heq := hbody hleft hleft' (by simpa only [List.append_assoc, List.cons_append] using heq)
    exact absurd (hyphens_of_append hright (by simpa using heq)) hopen
  · have heq := hbody hleft hleft' (by simpa only [List.append_assoc, List.cons_append] using heq)
    exact absurd (hyphens_of_append hright' (by simpa using heq.symm)) hopen'
  · have heq := hbody hleft hleft' (by simpa only [List.append_assoc, List.cons_append] using heq)
    simp only [List.nil_append, List.cons.injEq, true_and] at heq
    have heq : value ++ ['-', '-'] ++ right ++ ['\x7d', '\x7d'] =
        value' ++ ['-', '-'] ++ right' ++ ['\x7d', '\x7d'] := by simpa using heq
    exact long_value_unique hright hright' (List.append_cancel_right heq)

/-- What a slice is the written form of is fixed by its kind. -/
theorem Written.value_unique {kind : Kind} {value value' slice : List Char}
    (h : Written kind value slice) (h' : Written kind value' slice) : value = value' := by
  cases kind with
  | text => exact text_value_unique h h'
  | string => exact string_value_unique h h'
  | hashKey => exact hashKey_value_unique h h'
  | blockParams => exact blockParams_value_unique h h'
  | startTag => exact List.tail_eq_of_cons_eq (h.symm.trans h')
  | endTag => exact endTag_value_unique h h'
  | htmlComment => exact htmlComment_value_unique h h'
  | curlyComment => exact curlyComment_value_unique h h'
  | _ => exact h.symm.trans h'

end TemplateUsage.Scan
