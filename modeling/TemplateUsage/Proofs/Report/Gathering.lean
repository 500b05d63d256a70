import Mathlib.Data.List.Basic
import TemplateUsage.Report

set_option autoImplicit false

/-!
# What a report gathers

A report keeps the problems of failures in the order reported, and of the texts they bring for
a file the first (`Report.find?_foldl_addFailure`). A diagnostic is shown with no other text
than that of the file it is located in (`Diagnostic.render_congr`).
-/

namespace TemplateUsage

/-! ## Texts by file -/

namespace Sources

theorem lookup_filter_ne {file other : String} (h : other ≠ file)
    (entries : List (String × String)) :
    (entries.filter fun entry => entry.1 != file).lookup other = entries.lookup other := by
  induction entries with
  | nil => rfl
  | cons entry rest ih =>
      by_cases hentry : entry.1 = file
      · have hother : (other == entry.1) = false := by simpa [hentry] using h
        rw [List.filter_cons_of_neg (by simp [hentry]), ih, List.lookup_cons, hother]
      · rw [List.filter_cons_of_pos (by simp [hentry]), List.lookup_cons, ih, List.lookup_cons]

theorem find?_insert (sources : Sources) (file text other : String) :
    (sources.insert file text).find? other =
      if other = file then some text else sources.find? other := by
  rw [find?, insert, List.lookup_cons]
  by_cases h : other = file
  · rw [h, beq_self_eq_true, if_pos rfl]
  · rw [beq_false_of_ne h, if_neg h]
    exact lookup_filter_ne h sources.entries

/-- A text that is there already stays. -/
theorem find?_insertNew (sources : Sources) (file text other : String) :
    (sources.insertNew file text).find? other =
      (sources.find? other).or (if other = file then some text else none) := by
  unfold insertNew
  by_cases hother : other = file
  · subst hother
    cases hfound : sources.find? other with
    | some found => simp [hfound]
    | none => simp [find?_insert]
  · rw [if_neg hother, Option.or_none]
    split
    · rfl
    · rw [find?_insert, if_neg hother]

end Sources

/-! ## Failures -/

/-- The text that a failure brings for a file. -/
def Failure.textFor? (failure : Failure) (file : String) : Option String :=
  failure.source?.bind fun (name, text) => if file = name then some text else none

namespace Report

/-- The text of a failure is kept, unless there is one for the file already. -/
theorem find?_addFailure (report : Report) (failure : Failure) (file : String) :
    (report.addFailure failure).sources.find? file =
      (report.sources.find? file).or (failure.textFor? file) := by
  rw [Failure.textFor?, addFailure, add]
  cases failure.source? with
  | none => exact (Option.or_none).symm
  | some named => exact Sources.find?_insertNew report.sources named.1 named.2 file

/-- The text of a file is the one there was, or else the first that a failure brings. -/
theorem find?_foldl_addFailure (failures : List Failure) (report : Report) (file : String) :
    (failures.foldl addFailure report).sources.find? file =
      (report.sources.find? file).or (failures.findSome? (·.textFor? file)) := by
  induction failures generalizing report with
  | nil => exact (Option.or_none).symm
  | cons failure rest ih =>
      rw [List.foldl_cons, ih, find?_addFailure, List.findSome?_cons, Option.or_assoc]
      cases failure.textFor? file with
      | none => rfl
      | some text => rfl

/-- Failures are reported in the order in which they are added. -/
theorem diagnostics_foldl_addFailure (failures : List Failure) (report : Report) :
    (failures.foldl addFailure report).diagnostics =
      report.diagnostics ++ failures.map Failure.diagnostic := by
  induction failures generalizing report with
  | nil => exact (List.append_nil _).symm
  | cons failure rest ih =>
      have hadd : (report.addFailure failure).diagnostics =
          report.diagnostics ++ [failure.diagnostic] := rfl
      rw [List.foldl_cons, ih, hadd, List.append_assoc, List.singleton_append, List.map_cons]

/-- The report on failures. -/
def ofFailures (failures : List Failure) : Report := failures.foldl addFailure empty

theorem find?_ofFailures (failures : List Failure) (file : String) :
    (ofFailures failures).sources.find? file = failures.findSome? (·.textFor? file) :=
  find?_foldl_addFailure failures empty file

theorem diagnostics_ofFailures (failures : List Failure) :
    (ofFailures failures).diagnostics = failures.map Failure.diagnostic :=
  diagnostics_foldl_addFailure failures empty

end Report

/-! ## Diagnostics -/

/-- Of the texts, a diagnostic shows that of its own file. -/
theorem Diagnostic.render_congr {diagnostic : Diagnostic} {first second : Sources}
    (h : ∀ location ∈ diagnostic.location,
      first.find? location.file = second.find? location.file) (colour : Bool) :
    diagnostic.render colour first = diagnostic.render colour second := by
  have hlayout : diagnostic.layout first = diagnostic.layout second := by
    rw [layout, layout]
    cases hlocation : diagnostic.location with
    | none => rfl
    | some location =>
        have hline : sourceLine? first location = sourceLine? second location := by
          rw [sourceLine?, sourceLine?, h location hlocation]
        dsimp only
        rw [hline]
  rw [render, render, hlayout]

end TemplateUsage
