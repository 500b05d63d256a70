import Mathlib.Algebra.Group.Nat.Defs
import TemplateUsage.Number.Numeral
import TemplateUsage.Proofs.Scan.Exchange

set_option autoImplicit false

/-!
# Reading the numbers of a template

The scanner takes a number for digits with an optional minus sign and an optional
fraction (`Scan.number?_isNumeral`). Every number of this form can be read, except for
integers of too many digits (`Numeral.read_eq_error_iff`), and an integer is read as the
number its digits stand for, place by place (`Numeral.integer_eq`).
-/

namespace TemplateUsage

/-- Digits, and at least one. -/
def IsDigits (cs : List Char) : Prop := cs ≠ [] ∧ ∀ c ∈ cs, Text.isDigit c = true

/-- How the scanner takes numbers to be written. -/
inductive IsNumeral : List Char → Prop where
  | integer {sign digits : List Char} :
      sign = [] ∨ sign = ['-'] → IsDigits digits → IsNumeral (sign ++ digits)
  | decimal {sign whole fraction : List Char} :
      sign = [] ∨ sign = ['-'] → IsDigits whole → IsDigits fraction →
        IsNumeral (sign ++ (whole ++ '.' :: fraction))

theorem isDigits_replicate {c : Char} (hc : Text.isDigit c = true) (count : Nat) :
    IsDigits (List.replicate (count + 1) c) := by
  refine ⟨List.cons_ne_nil _ _, fun d hd => ?_⟩
  rw [List.eq_of_mem_replicate hd, hc]

/-! ## Scanned numbers -/

namespace Scan

theorem signRun_cases (cs : List Char) : signRun cs = [] ∨ signRun cs = ['-'] := by
  cases cs with
  | nil => exact .inl rfl
  | cons c rest => by_cases hc : c = '-' <;> simp [signRun, hc]

theorem isDigits_takeWhile {cs : List Char} (h : (cs.takeWhile Text.isDigit).isEmpty = false) :
    IsDigits (cs.takeWhile Text.isDigit) :=
  ⟨List.isEmpty_eq_false_iff.1 h, fun _ hc => List.mem_takeWhile_imp hc⟩

/-- The scanner finds numerals. -/
theorem number?_isNumeral {cs : List Char} {found : Found} (h : number? cs = some found) :
    IsNumeral found.value := by
  unfold number? at h
  dsimp only at h
  split at h
  · rename_i hdigits
    cases h
    rw [Bool.and_eq_true, Bool.not_eq_true'] at hdigits
    have hsome := hdigits.1
    have hsign := signRun_cases cs
    show IsNumeral (signRun cs ++ decimalRun (cs.drop (signRun cs).length))
    revert hsome
    unfold decimalRun
    dsimp only
    split
    · split
      · exact fun hsome => .integer hsign (isDigits_takeWhile hsome)
      · rename_i hparts
        rw [Bool.or_eq_true, not_or, Bool.not_eq_true, Bool.not_eq_true] at hparts
        exact fun _ => .decimal hsign (isDigits_takeWhile hparts.1) (isDigits_takeWhile hparts.2)
    · exact fun hsome => .integer hsign (isDigits_takeWhile hsome)
  · cases h

theorem not_isBlank_of_isDigit {c : Char} (h : Text.isDigit c = true) :
    Text.isBlank c = false := by
  by_contra hblank
  rw [Bool.not_eq_false] at hblank
  rw [isDigit_of_isBlank hblank] at h
  cases h

/-- Every digit may stand in a key. -/
theorem isKeyChar_of_isDigit {c : Char} (h : Text.isDigit c = true) : isKeyChar c = true := by
  have hnone : (['(', ')', '\x7b', '\x7d', '|', '=', '~', '"', '\'', '!', '#', '^'].all
      fun d => !Text.isDigit d) = true := by decide
  have hother : c ∉ ['(', ')', '\x7b', '\x7d', '|', '=', '~', '"', '\'', '!', '#', '^'] := by
    intro hmem
    have hdigit := List.all_eq_true.1 hnone c hmem
    rw [h] at hdigit
    cases hdigit
  simp only [List.mem_cons, List.not_mem_nil, or_false, not_or] at hother
  simp [isKeyChar, isPathChar, not_isBlank_of_isDigit h, hother]

section

variable {sign digits : List Char} (hsign : sign = [] ∨ sign = ['-']) (hdigits : IsDigits digits)
  (rest : List Char)
include hsign hdigits

/-- An integer before a closing brace is found as a number. -/
theorem number?_integer :
    number? (sign ++ digits ++ '\x7d' :: rest) = some (.whole (sign ++ digits)) := by
  have hend : ∀ c ∈ ('\x7d' :: rest).head?, Text.isDigit c = false := by
    rintro c ⟨⟩
    decide
  have hrun : signRun (sign ++ digits ++ '\x7d' :: rest) = sign := by
    rcases hsign with rfl | rfl
    · obtain ⟨c, tail, rfl⟩ := List.exists_cons_of_ne_nil hdigits.1
      have hc : c ≠ '-' := by
        rintro rfl
        exact absurd (hdigits.2 '-' List.mem_cons_self) (by decide)
      simp [signRun, hc]
    · rfl
  have hdecimal : decimalRun (digits ++ '\x7d' :: rest) = digits := by
    rw [decimalRun, takeWhile_run hdigits.2 hend, dropWhile_run hdigits.2 hend]
    rfl
  have hsome : digits.isEmpty = false := List.isEmpty_eq_false_iff.2 hdigits.1
  rw [number?, hrun, List.append_assoc, List.drop_left, hdecimal, ← List.append_assoc,
    List.drop_left, hsome]
  rfl

/-- An integer begins with a minus sign or a digit. -/
theorem head?_integer :
    ∃ c tail, sign ++ digits = c :: tail ∧ (c = '-' ∨ Text.isDigit c = true) := by
  rcases hsign with rfl | rfl
  · obtain ⟨c, tail, rfl⟩ := List.exists_cons_of_ne_nil hdigits.1
    exact ⟨c, tail, rfl, .inr (hdigits.2 c List.mem_cons_self)⟩
  · exact ⟨'-', digits, rfl, .inl rfl⟩

/-- No word of an expression ends where an integer begins. -/
theorem endsWord_integer : endsWord (sign ++ digits ++ rest) = false := by
  obtain ⟨c, tail, hhead, hc⟩ := head?_integer hsign hdigits
  rw [hhead]
  rcases hc with rfl | hc
  · rfl
  · have hkey := isKeyChar_of_isDigit hc
    simp only [isKeyChar, isPathChar, List.contains_cons, Bool.and_eq_true, Bool.not_eq_true',
      Bool.or_eq_false_iff] at hkey
    simp only [List.cons_append, endsWord, List.contains_cons, hkey, Bool.or_false]

/-- In an expression an integer before a closing brace is taken for a number. -/
theorem wordStep?_integer :
    wordStep? (sign ++ digits ++ '\x7d' :: rest) = some (.number, .whole (sign ++ digits)) := by
  have hkeys : ∀ c ∈ sign ++ digits, isKeyChar c = true := by
    refine List.forall_mem_append.2 ⟨?_, fun c hc => isKeyChar_of_isDigit (hdigits.2 c hc)⟩
    rcases hsign with rfl | rfl
    · exact List.forall_mem_nil _
    · exact List.forall_mem_singleton.2 rfl
  have hbrace : ∀ c ∈ ('\x7d' :: rest).head?, isKeyChar c = false := by
    rintro c ⟨⟩
    rfl
  have hkey : hashKey? (sign ++ digits ++ '\x7d' :: rest) = none := by
    rw [hashKey?, takeWhile_run hkeys hbrace, dropWhile_run hkeys hbrace]
    rfl
  have hnumber := number?_integer hsign hdigits rest
  -- neither block parameters nor a string begin with a minus sign or a digit
  obtain ⟨c, tail, hhead, hc⟩ := head?_integer hsign hdigits
  have hother : ∀ d ∈ ['a', '"', '\''], c ≠ d := by
    rintro d hd rfl
    have hnone : (['a', '"', '\''].all fun d => d != '-' && !Text.isDigit d) = true := by decide
    have hstart := List.all_eq_true.1 hnone c hd
    rcases hc with rfl | hc
    · cases hstart
    · simp [hc] at hstart
  simp only [List.forall_mem_cons] at hother
  rw [hhead, List.cons_append] at hkey hnumber ⊢
  have hparams : blockParams? (c :: (tail ++ '\x7d' :: rest)) = none := by
    simp [blockParams?, hother.1]
  rw [wordStep?_of_plain hparams (string?_eq_none hother.2.1 hother.2.2.1 _), plainWord?, hkey,
    hnumber]
  rfl

end

end Scan

/-! ## What digits stand for -/

/-- Value of a digit; zero for any other character. -/
def Text.digitValue (c : Char) : Nat := (Text.digitValue? c).getD 0

/-- The number that digits stand for: each counts for its value times ten to the power of
the number of digits after it. -/
def placeValue : List Char → Nat
  | [] => 0
  | c :: rest => Text.digitValue c * 10 ^ rest.length + placeValue rest

/-- The number that digits behind an optional sign stand for. -/
def signedValue (sign digits : List Char) : Int :=
  if sign = ['-'] then -placeValue digits else placeValue digits

/-- Reading digits from the left gives each its place. -/
theorem Text.digitsValue_map (digits : List Char) :
    Text.digitsValue (digits.map Text.digitValue) = placeValue digits := by
  have hfold : ∀ front : Nat,
      (digits.map Text.digitValue).foldl (fun value digit => 10 * value + digit) front =
        front * 10 ^ digits.length + placeValue digits := by
    induction digits with
    | nil => simp [placeValue]
    | cons c rest ih =>
        -- what is read so far moves up one place with every digit
        intro front
        rw [List.map_cons, List.foldl_cons, ih, placeValue, List.length_cons, Nat.pow_succ',
          Nat.add_mul, Nat.mul_comm 10 front, Nat.mul_assoc, Nat.add_assoc]
  rw [Text.digitsValue, hfold, Nat.zero_mul, Nat.zero_add]

/-! ## Numbers that are read -/

namespace Numeral

variable {sign digits : List Char}

theorem digitValues?_eq (h : IsDigits digits) :
    digitValues? digits = some (digits.map Text.digitValue) := by
  obtain ⟨hne, hdigits⟩ := h
  induction digits with
  | nil => exact absurd rfl hne
  | cons c rest ih =>
      obtain ⟨hc, hrest⟩ := List.forall_mem_cons.1 hdigits
      obtain ⟨value, hvalue⟩ := Option.isSome_iff_exists.1 hc
      have hdigit : Text.digitValue c = value := by
        rw [Text.digitValue, hvalue]
        rfl
      cases rest with
      | nil =>
          rw [digitValues?, hvalue, List.map_singleton, hdigit]
          rfl
      | cons d rest =>
          -- an underscore is no digit, so the case of one between digits does not arise
          have hscore : d ≠ '_' := by
            rintro rfl
            exact absurd (hrest '_' List.mem_cons_self) (by decide)
          rw [digitValues?, hvalue, ih (List.cons_ne_nil _ _) hrest, ← hdigit]
          · rfl
          all_goals simp [hscore]

/-- A sign and digits are not padding. -/
theorem skipPadding_numeral (hsign : sign = [] ∨ sign = ['-']) (h : IsDigits digits)
    (rest : List Char) : skipPadding (sign ++ (digits ++ rest)) = sign ++ (digits ++ rest) := by
  obtain ⟨c, tail, rfl⟩ := List.exists_cons_of_ne_nil h.1
  have hblank := Scan.not_isBlank_of_isDigit (h.2 c List.mem_cons_self)
  rcases hsign with rfl | rfl
  · refine List.dropWhile_cons_of_neg ?_
    rw [isPadding, hblank]
    exact Bool.false_ne_true
  · exact List.dropWhile_cons_of_neg (by decide)

theorem splitSign_numeral (hsign : sign = [] ∨ sign = ['-']) (h : IsDigits digits)
    (rest : List Char) :
    splitSign (sign ++ (digits ++ rest)) = (decide (sign = ['-']), digits ++ rest) := by
  rcases hsign with rfl | rfl
  · obtain ⟨c, tail, rfl⟩ := List.exists_cons_of_ne_nil h.1
    have hdigit := h.2 c List.mem_cons_self
    rw [List.nil_append, List.cons_append]
    unfold splitSign
    split
    · rename_i heq
      cases heq
      exact absurd hdigit (by decide)
    · rename_i heq
      cases heq
      exact absurd hdigit (by decide)
    · rfl
  · rfl

theorem isDigitOrScore_of_isDigits (h : IsDigits digits) :
    ∀ c ∈ digits, isDigitOrScore c = true := by
  intro c hc
  rw [isDigitOrScore, h.2 c hc]
  rfl

theorem optionalDigits?_eq (h : IsDigits digits) : optionalDigits? digits = digitValues? digits :=
  if_neg (by rw [List.isEmpty_iff]; exact h.1)

/-- An integer is read as the number its digits stand for, unless there are too many. -/
theorem integer_eq (hsign : sign = [] ∨ sign = ['-']) (h : IsDigits digits) :
    integer (String.ofList (sign ++ digits)) =
      if digitLimit < digits.length then .error (.tooManyDigits digits.length)
      else .ok (signedValue sign digits) := by
  have hpadding := skipPadding_numeral hsign h []
  have hsplit := splitSign_numeral hsign h []
  have hrun := isDigitOrScore_of_isDigits h
  rw [List.append_nil] at hpadding hsplit
  rw [integer, String.toList_ofList, hpadding, hsplit]
  dsimp only
  rw [List.takeWhile_eq_self_iff.2 hrun, List.dropWhile_eq_nil_iff.2 hrun, digitValues?_eq h]
  dsimp only
  rw [List.length_map, Text.digitsValue_map, signedValue]
  simp only [decide_eq_true_eq, skipPadding, List.dropWhile_nil, ne_eq, not_true_eq_false, if_false]

/-- A decimal has all its parts. -/
theorem exists_decimalParts {whole fraction : List Char} (hsign : sign = [] ∨ sign = ['-'])
    (hwhole : IsDigits whole) (hfraction : IsDigits fraction) :
    ∃ parts, decimalParts? (sign ++ (whole ++ '.' :: fraction)) = some parts := by
  have hsplit := splitSign_numeral hsign hwhole ('.' :: fraction)
  have hrun := isDigitOrScore_of_isDigits hwhole
  have htail := isDigitOrScore_of_isDigits hfraction
  have hpoint : ∀ c ∈ ('.' :: fraction).head?, isDigitOrScore c = false := by
    rintro c ⟨⟩
    decide
  have hsome : (fraction.map Text.digitValue).isEmpty = false := by
    rw [List.isEmpty_map, List.isEmpty_eq_false_iff]
    exact hfraction.1
  rw [decimalParts?, hsplit]
  dsimp only
  rw [Scan.takeWhile_run hrun hpoint, Scan.dropWhile_run hrun hpoint, optionalDigits?_eq hwhole,
    digitValues?_eq hwhole]
  simp only [List.takeWhile_eq_self_iff.2 htail, optionalDigits?_eq hfraction,
    digitValues?_eq hfraction, List.dropWhile_eq_nil_iff.2 htail, Option.bind_eq_bind,
    Option.bind_some, hsome, Bool.and_false]
  exact ⟨_, rfl⟩

/-- A decimal is read. -/
theorem exists_decimal {whole fraction : List Char} (hsign : sign = [] ∨ sign = ['-'])
    (hwhole : IsDigits whole) (hfraction : IsDigits fraction) :
    ∃ value, decimal (String.ofList (sign ++ (whole ++ '.' :: fraction))) = .ok value := by
  -- padding is taken off at both ends, and at the far end stands the fraction turned around
  have hback : IsDigits fraction.reverse :=
    ⟨fun hnil => hfraction.1 (List.reverse_eq_nil_iff.1 hnil),
      fun c hc => hfraction.2 c (List.mem_reverse.1 hc)⟩
  have hpadding := skipPadding_numeral hsign hwhole ('.' :: fraction)
  have hbehind := skipPadding_numeral (.inl rfl) hback ('.' :: whole.reverse ++ sign.reverse)
  have hreverse : (sign ++ (whole ++ '.' :: fraction)).reverse =
      [] ++ (fraction.reverse ++ ('.' :: whole.reverse ++ sign.reverse)) := by simp
  obtain ⟨⟨negative, value, scale⟩, hparts⟩ := exists_decimalParts hsign hwhole hfraction
  rw [decimal, String.toList_ofList, hpadding, hreverse, hbehind, ← hreverse, List.reverse_reverse,
    hparts]
  exact ⟨_, rfl⟩

/-- The text is an integer of so many digits, which is too many. -/
def Overlong (text : List Char) (count : Nat) : Prop :=
  ∃ sign digits, text = sign ++ digits ∧ (sign = [] ∨ sign = ['-']) ∧ IsDigits digits ∧
    digits.length = count ∧ digitLimit < count

/-- Without a point, a number is read as an integer. -/
theorem read_integer (hsign : sign = [] ∨ sign = ['-']) (h : IsDigits digits) :
    read (String.ofList (sign ++ digits)) =
      if digitLimit < digits.length then .error (.tooManyDigits digits.length)
      else .ok (.integer (signedValue sign digits)) := by
  have hpoint : '.' ∉ sign ++ digits := by
    rw [List.mem_append, not_or]
    refine ⟨?_, fun hmem => absurd (h.2 '.' hmem) (by decide)⟩
    rcases hsign with rfl | rfl <;> decide
  rw [read, String.toList_ofList, if_neg (by rwa [List.contains_iff_mem]), integer_eq hsign h]
  split <;> rfl

/-- A number is not read exactly when it is an integer of too many digits. -/
theorem read_eq_error_iff {text : List Char} (h : IsNumeral text) {error : NumeralError} :
    read (String.ofList text) = .error error ↔
      ∃ count, error = .tooManyDigits count ∧ Overlong text count := by
  constructor
  · intro hread
    cases h with
    | @integer sign digits hsign hdigits =>
        rw [read_integer hsign hdigits] at hread
        split at hread
        · cases hread
          exact ⟨_, rfl, sign, digits, rfl, hsign, hdigits, rfl, ‹_›⟩
        · cases hread
    | @decimal sign whole fraction hsign hwhole hfraction =>
        obtain ⟨value, hvalue⟩ := exists_decimal hsign hwhole hfraction
        rw [read, String.toList_ofList, if_pos (by simp), hvalue] at hread
        cases hread
  · rintro ⟨count, rfl, sign, digits, rfl, hsign, hdigits, rfl, hlong⟩
    rw [read_integer hsign hdigits, if_pos hlong]

end Numeral

end TemplateUsage
