import TemplateUsage.Proofs.Calls
import TemplateUsage.Proofs.Scan.Spelling
import TemplateUsage.Proofs.Tree.Failures

set_option autoImplicit false

/-!
# Integers of too many digits

The one thing in a text that stops its parsing without a rejection is an integer of too
many digits (`Template.hasOverlong_of_parse`), and such an integer on its own does stop
it (`Template.parse_ones`).
-/

namespace TemplateUsage

open Scan Phrase

/-! ## What stops the parsing of a text -/

/-- A number of the text is an integer of too many digits, and the error counts them. -/
def Template.HasOverlong (source : String) (error : NumeralError) : Prop :=
  ∃ token ∈ (Scan.ofText source).tokens, token.kind = .number ∧
    ∃ count, error = .tooManyDigits count ∧ Numeral.Overlong token.lexeme.value.toList count

/-- Parsing stops without a rejection only at an integer of too many digits. -/
theorem Template.hasOverlong_of_parse {file source : String} {error : NumeralError}
    (h : parse file source = .error (.numeral error)) : HasOverlong source error := by
  obtain ⟨-, statements, htokens, hbuild⟩ := parse_eq_numeral_iff.1 h
  obtain ⟨token, hmem, hkind, hread⟩ := exists_number_of_buildTemplate hbuild
  rw [htokens] at hmem
  have hshown := shown_ofText source token hmem
  rw [Shown, hkind] at hshown
  rw [← String.ofList_toList (s := token.lexeme.value)] at hread
  exact ⟨token, hmem, hkind, (Numeral.read_eq_error_iff hshown).1 hread⟩

/-! ## A text that stops it -/

/-- So many ones, and closing braces. -/
def onesClosed (count : Nat) : List Char := List.replicate count '1' ++ ['\x7d', '\x7d']

/-- An integer of ones between braces. -/
def onesText (count : Nat) : List Char := '\x7b' :: '\x7b' :: onesClosed count

section

variable (count : Nat)

theorem isDigits_ones : IsDigits (List.replicate (count + 1) '1') :=
  isDigits_replicate (by decide) count

theorem step_ones (offset start : Nat) (outer : List OpenMode) :
    State.step ⟨offset, onesClosed (count + 1), ⟨.expression .double, start⟩ :: outer, false⟩ =
      .emit .number (List.replicate (count + 1) '1') (count + 1)
        (⟨.expression .double, start⟩ :: outer) := by
  have hstep := step_word (endsWord_integer (.inl rfl) (isDigits_ones count) ['\x7d', '\x7d'])
    (wordStep?_integer (.inl rfl) (isDigits_ones count) ['\x7d']) offset start .double outer false
  rw [Step.found, Found.whole, List.nil_append, List.length_replicate] at hstep
  exact hstep

/-- The tokens of the integer and its braces. -/
theorem scanned_ones :
    Scanned (onesText (count + 1))
      [⟨.openCurly, ['\x7b', '\x7b'], 0, 2⟩,
        ⟨.number, List.replicate (count + 1) '1', 2, 2 + (count + 1)⟩,
        ⟨.closeCurly, ['\x7d', '\x7d'], 2 + (count + 1), 2 + (count + 1) + 2⟩] := by
  let inside : List OpenMode := [⟨.expression .double, 0⟩]
  have hopen : Run (.initial (onesText (count + 1))) [⟨.openCurly, ['\x7b', '\x7b'], 0, 2⟩]
      ⟨2, onesClosed (count + 1), inside, false⟩ := by
    have hstep : State.step (.initial (onesText (count + 1))) =
        .emit .openCurly ['\x7b', '\x7b'] 2 inside := rfl
    exact .emit (List.cons_ne_nil _ _) hstep (.refl _)
  have hnumber : Run ⟨2, onesClosed (count + 1), inside, false⟩
      [⟨.number, List.replicate (count + 1) '1', 2, 2 + (count + 1)⟩]
      ⟨2 + (count + 1), ['\x7d', '\x7d'], inside, false⟩ := by
    refine .emit (List.cons_ne_nil _ _) (step_ones count _ _ _) ?_
    rw [State.advance, onesClosed, List.drop_left' List.length_replicate]
    exact .refl _
  have hclose : Run ⟨2 + (count + 1), ['\x7d', '\x7d'], inside, false⟩
      [⟨.closeCurly, ['\x7d', '\x7d'], 2 + (count + 1), 2 + (count + 1) + 2⟩]
      ⟨2 + (count + 1) + 2, [], [], false⟩ := by
    have hstep : State.step ⟨2 + (count + 1), ['\x7d', '\x7d'], inside, false⟩ =
        .emit .closeCurly ['\x7d', '\x7d'] 2 [] := rfl
    exact .emit (List.cons_ne_nil _ _) hstep (.refl _)
  exact ⟨_, hopen.trans (hnumber.trans hclose), rfl, rfl⟩

/-- An integer of too many ones stops the parsing. -/
theorem Template.parse_ones (file : String) {count : Nat} (hlong : Numeral.digitLimit < count) :
    parse file (String.ofList (onesText count)) = .error (.numeral (.tooManyDigits count)) := by
  obtain ⟨count, rfl⟩ : ∃ others, count = others + 1 :=
    Nat.exists_eq_succ_of_ne_zero (Nat.ne_of_gt (Nat.lt_of_le_of_lt (Nat.zero_le _) hlong))
  have hread := Numeral.read_integer (.inl rfl) (isDigits_ones count)
  rw [List.nil_append, List.length_replicate, if_pos hlong] at hread
  rw [parse_eq_numeral_iff, (scanned_ones count).ofText_eq]
  refine ⟨rfl, [.mustache ⟨false, ⟨_, _⟩, .mk (.atom .number ⟨_, _⟩) [] [], ⟨_, _⟩⟩], rfl, ?_⟩
  rw [buildTemplate, buildStatements, Statement.build, Mustache.build, Call.build,
    Expression.build, Literal.read, hread]
  rfl

end

end TemplateUsage
