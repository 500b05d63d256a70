import Mathlib.Data.List.Basic
import TemplateUsage.Proofs.Overlong

set_option autoImplicit false

/-!
# Integers and how they are written

Digits of every script behind an optional minus sign are read as the number they stand for,
place by place, unless there are too many of them. The decimal text of an integer is of this
form and stands for the integer (`exists_decimal_toString`), so every integer that is not too
long can be written. A number token that the scanner finds is read but for the same reason.
Main statement: `integers_written_and_read`.
-/

namespace TemplateUsage

/-! ## Decimal texts -/

/-- The digits of decimal texts come first in the table of digits. -/
theorem Text.digitValue?_of_isDigit {c : Char} (h : c.isDigit = true) :
    Text.digitValue? c = some (c.toNat - '0'.toNat) := by
  have hrange : 48 ≤ c.toNat ∧ c.toNat < 48 + 10 := by
    simp only [Char.isDigit, Bool.and_eq_true, decide_eq_true_eq, ge_iff_le,
      UInt32.le_iff_toNat_le] at h
    exact ⟨h.1, Nat.lt_succ_of_le h.2⟩
  rw [Text.digitValue?, Text.digitZeros, List.find?_cons_of_pos (by simpa using hrange)]
  rfl

theorem isDigits_toDigits (n : Nat) : IsDigits (Nat.toDigits 10 n) := by
  refine ⟨Nat.toDigits_ne_nil, fun c hc => ?_⟩
  have hdigit := Nat.isDigit_of_mem_toDigits (by decide) (by decide) hc
  rw [Text.isDigit, Text.digitValue?_of_isDigit hdigit]
  rfl

/-- The digits of a number stand for it. -/
theorem placeValue_toDigits (n : Nat) : placeValue (Nat.toDigits 10 n) = n := by
  have hstep : ∀ value : Nat, ∀ c ∈ Nat.toDigits 10 n,
      10 * value + Text.digitValue c = 10 * value + (c.toNat - '0'.toNat) := by
    intro value c hc
    have hdigit := Nat.isDigit_of_mem_toDigits (by decide) (by decide) hc
    rw [Text.digitValue, Text.digitValue?_of_isDigit hdigit, Option.getD_some]
  calc placeValue (Nat.toDigits 10 n)
      = Nat.ofDigitChars 10 (Nat.toDigits 10 n) 0 := by
        rw [← Text.digitsValue_map, Text.digitsValue, List.foldl_map, List.foldl_ext _ _ _ hstep]
        rfl
    _ = n := Nat.ofDigitChars_ten_toDigits

/-- The decimal text of an integer is an optional minus sign and the digits of its size, and
stands for the integer. -/
theorem exists_decimal_toString (n : Int) :
    ∃ sign, (sign = [] ∨ sign = ['-']) ∧
      (toString n).toList = sign ++ Nat.toDigits 10 n.natAbs ∧
      signedValue sign (Nat.toDigits 10 n.natAbs) = n := by
  cases n with
  | ofNat m =>
      refine ⟨[], .inl rfl, Nat.toList_repr, ?_⟩
      show (placeValue (Nat.toDigits 10 m) : Int) = Int.ofNat m
      rw [placeValue_toDigits]
      rfl
  | negSucc m =>
      refine ⟨['-'], .inr rfl, ?_, ?_⟩
      · show ("-" ++ (m + 1).repr).toList = _
        rw [String.toList_append, Nat.toList_repr]
        rfl
      · show -(placeValue (Nat.toDigits 10 (m + 1)) : Int) = Int.negSucc m
        rw [placeValue_toDigits]
        rfl

/-! ## Integers in a call -/

/-- The literal parser fails on a number exactly when it is an integer of too many digits. -/
theorem Literal.read_number_eq_error_iff {text : List Char} (h : IsNumeral text)
    {error : LiteralError} :
    read .number (String.ofList text) = .error error ↔
      ∃ count, error = .numeral (.tooManyDigits count) ∧ Numeral.Overlong text count := by
  rw [read]
  cases hread : Numeral.read (String.ofList text) with
  | ok value =>
      constructor
      · intro herror
        cases herror
      · rintro ⟨count, rfl, hlong⟩
        rw [(Numeral.read_eq_error_iff h).2 ⟨count, rfl, hlong⟩] at hread
        cases hread
  | error fault =>
      obtain ⟨count, rfl, hlong⟩ := (Numeral.read_eq_error_iff h).1 hread
      constructor
      · rintro ⟨⟩
        exact ⟨count, rfl, hlong⟩
      · rintro ⟨other, rfl, hother⟩
        rw [(Numeral.read_eq_error_iff h).2 ⟨other, rfl, hother⟩] at hread
        cases hread
        rfl

namespace Template

open Scan

section

variable (file : String) {sign digits : List Char} (hsign : sign = [] ∨ sign = ['-'])
  (hdigits : IsDigits digits)
include hsign hdigits

/-- A call with an integer that is not too long is parsed as the call with the number its
digits stand for. -/
theorem parse_callText_integer (hshort : digits.length ≤ Numeral.digitLimit) {text : List Char}
    (htext : text = callText (sign ++ digits)) :
    parse file (String.ofList text) =
      .ok (callTree file text (.number (.integer (signedValue sign digits)))) := by
  have hread : Literal.read .number (String.ofList (sign ++ digits)) =
      .ok (.number (.integer (signedValue sign digits))) := by
    rw [Literal.read, Numeral.read_integer hsign hdigits, if_neg (Nat.not_lt.2 hshort)]
  exact parse_callText .number (endsWord_integer hsign hdigits _)
    (wordStep?_integer hsign hdigits _) file hread htext

/-- A call with an integer of too many digits stops the parsing. -/
theorem parse_callText_overlong (hlong : Numeral.digitLimit < digits.length) :
    parse file (String.ofList (callText (sign ++ digits))) =
      .error (.numeral (.tooManyDigits digits.length)) := by
  have hread : Literal.read .number (String.ofList (sign ++ digits)) =
      .error (.numeral (.tooManyDigits digits.length)) := by
    rw [Literal.read, Numeral.read_integer hsign hdigits, if_pos hlong]
  exact parse_callText_numeral .number (endsWord_integer hsign hdigits _)
    (wordStep?_integer hsign hdigits _) file hread

end

/-- Integers keep their value. Digits of any scripts behind an optional minus sign, at most as
many as the limit, are parsed as the number they stand for, and with more digits the parsing
stops. So every integer whose size has no more digits is read back from its decimal text. In
every text, a number token fails to be read only for having too many digits. -/
theorem integers_written_and_read :
    (∀ (file : String) (sign digits : List Char), sign = [] ∨ sign = ['-'] → IsDigits digits →
      ∀ text, text = callText (sign ++ digits) →
      parse file (String.ofList text) =
        if digits.length ≤ Numeral.digitLimit then
          .ok (callTree file text (.number (.integer (signedValue sign digits))))
        else .error (.numeral (.tooManyDigits digits.length))) ∧
    (∀ (file : String) (n : Int), n.natAbs < 10 ^ Numeral.digitLimit →
      ∀ text, text = callText (toString n).toList →
      parse file (String.ofList text) = .ok (callTree file text (.number (.integer n)))) ∧
    ∀ (source : String), ∀ token ∈ (ofText source).tokens, token.kind = .number →
      ∀ error, Literal.read .number token.lexeme.value = .error error ↔
        ∃ count, error = .numeral (.tooManyDigits count) ∧
          Numeral.Overlong token.lexeme.value.toList count := by
  refine ⟨fun file sign digits hsign hdigits text htext => ?_, fun file n hn text htext => ?_,
    fun source token hmem hkind error => ?_⟩
  · split
    · exact parse_callText_integer file hsign hdigits ‹_› htext
    · rw [htext, parse_callText_overlong file hsign hdigits (Nat.lt_of_not_le ‹_›)]
  · obtain ⟨sign, hsign, hdecimal, hvalue⟩ := exists_decimal_toString n
    have hshort : (Nat.toDigits 10 n.natAbs).length ≤ Numeral.digitLimit :=
      (Nat.length_toDigits_le_iff (by decide) (by decide)).2 hn
    rw [hdecimal] at htext
    rw [parse_callText_integer file hsign (isDigits_toDigits _) hshort htext, hvalue]
  · have hshown := shown_ofText source token hmem
    rw [Shown, hkind] at hshown
    rw [← Literal.read_number_eq_error_iff hshown, String.ofList_toList]

/-- A call with digits of three scripts behind a minus sign, zero first. -/
def scriptsCall : List Char := callText (['-'] ++ ['\u0660', '\u0e57', '3'])

/-- The digits of three scripts are read together, zeros count as digits, a decimal text is
read back, and the number token of the call is read. -/
theorem integers_written_and_read_scriptsCall :
    parse "page" (String.ofList scriptsCall) =
      .ok (callTree "page" scriptsCall (.number (.integer (-73)))) ∧
    parse "page" (String.ofList (callText ([] ++ List.replicate 4301 '0'))) =
      .error (.numeral (.tooManyDigits 4301)) ∧
    parse "page" (String.ofList (callText "-1900".toList)) =
      .ok (callTree "page" (callText "-1900".toList) (.number (.integer (-1900)))) ∧
    ∃ token ∈ (ofText (String.ofList scriptsCall)).tokens, token.kind = .number ∧
      ∀ error, Literal.read .number token.lexeme.value = .error error →
        ∃ count, error = .numeral (.tooManyDigits count) := by
  obtain ⟨hdigits, hdecimal, htokens⟩ := integers_written_and_read
  have hscripts : IsDigits ['\u0660', '\u0e57', '3'] :=
    ⟨by decide, List.all_eq_true.1 (by decide)⟩
  have hzeros : IsDigits (List.replicate 4301 '0') := isDigits_replicate (by decide) 4300
  have hvalue : signedValue ['-'] ['\u0660', '\u0e57', '3'] = -73 := by decide
  refine ⟨?_, ?_, ?_, ?_⟩
  · rw [hdigits "page" ['-'] _ (.inr rfl) hscripts scriptsCall rfl, if_pos (by decide), hvalue]
  · rw [hdigits "page" [] _ (.inl rfl) hzeros _ rfl, List.length_replicate, if_neg (by decide)]
  · have hshort : (-1900 : Int).natAbs < 10 ^ Numeral.digitLimit :=
      Nat.lt_of_lt_of_le (by decide : 1900 < 10 ^ 4) (Nat.pow_le_pow_right (by decide) (by decide))
    exact hdecimal "page" (-1900) hshort _ rfl
  · have hfound : ((ofText (String.ofList scriptsCall)).tokens.find?
        fun token => token.kind == .number).isSome = true := by decide +kernel
    obtain ⟨token, htoken⟩ := Option.isSome_iff_exists.1 hfound
    have hmem := List.mem_of_find?_eq_some htoken
    have hkind : token.kind = .number := by simpa using List.find?_some htoken
    refine ⟨token, hmem, hkind, fun error herror => ?_⟩
    obtain ⟨count, hcount, -⟩ := (htokens _ token hmem hkind error).1 herror
    exact ⟨count, hcount⟩

end Template

end TemplateUsage
