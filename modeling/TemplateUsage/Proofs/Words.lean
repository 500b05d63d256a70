import Mathlib.Data.List.TakeWhile
import TemplateUsage.Node.Build
import TemplateUsage.Proofs.Scan.Written

set_option autoImplicit false

/-!
# Words

The words of a text are its runs of characters that are not blank: each is one
(`mem_words`), and words joined by a space are read back (`words_intercalate`). The names
of block parameters are the words between two bars.
-/

namespace TemplateUsage

namespace Text

theorem words_nil : words [] = [] := by
  rw [words]
  rfl

theorem words_cons_blank {blank : Char} (hblank : isBlank blank = true) (rest : List Char) :
    words (blank :: rest) = words rest := by
  rw [words, words.eq_1 rest]
  have hdrop : (blank :: rest).dropWhile isBlank = rest.dropWhile isBlank := by
    rw [List.dropWhile_cons, if_pos hblank]
  rw [hdrop]

/-- A word is read up to the blank after it. -/
theorem words_append {word rest : List Char} (hne : word ≠ [])
    (hword : ∀ c ∈ word, isBlank c = false) (hrest : ∀ c ∈ rest.head?, isBlank c = true) :
    words (word ++ rest) = word :: words rest := by
  obtain ⟨c, tail, rfl⟩ := List.exists_cons_of_ne_nil hne
  obtain ⟨hc, htail⟩ := List.forall_mem_cons.1 hword
  have hstart : (c :: tail ++ rest).dropWhile isBlank = c :: (tail ++ rest) := by
    rw [List.cons_append, List.dropWhile_cons, hc]
    rfl
  have hrun : ∀ d ∈ tail, (!isBlank d) = true := fun d hd => by rw [htail d hd, Bool.not_false]
  have hend : ∀ d ∈ rest.head?, (!isBlank d) = false :=
    fun d hd => by rw [hrest d hd, Bool.not_true]
  rw [words, hstart]
  dsimp only
  rw [Scan.takeWhile_run hrun hend, Scan.dropWhile_run hrun hend]

/-- Words that are joined by a space are read back. -/
theorem words_intercalate {pieces : List (List Char)}
    (h : ∀ piece ∈ pieces, piece ≠ [] ∧ ∀ c ∈ piece, isBlank c = false) :
    words ([' '].intercalate pieces) = pieces := by
  induction pieces with
  | nil => rw [List.intercalate_nil, words_nil]
  | cons piece rest ih =>
      obtain ⟨⟨hne, hpiece⟩, hrest⟩ := List.forall_mem_cons.1 h
      cases rest with
      | nil =>
          rw [List.intercalate_singleton, ← List.append_nil piece,
            words_append hne hpiece (by nofun), words_nil, List.append_nil]
      | cons next others =>
          rw [List.intercalate_cons_cons, List.append_assoc, words_append hne hpiece]
          · rw [List.singleton_append, words_cons_blank rfl, ih hrest]
          · rintro c ⟨⟩
            rfl

/-- A word is not empty, and no blank of the text. -/
theorem mem_words {cs word : List Char} (h : word ∈ words cs) :
    word ≠ [] ∧ ∀ c ∈ word, isBlank c = false ∧ c ∈ cs := by
  fun_induction words cs with
  | case1 cs hnil => cases h
  | case2 cs c rest hrest ih =>
      have hsub : ∀ d ∈ c :: rest, d ∈ cs := by
        rw [← hrest]
        exact fun d hd => (List.dropWhile_sublist isBlank).subset hd
      rcases List.mem_cons.1 h with rfl | h
      · -- the first word starts where the blanks before it end
        refine ⟨List.cons_ne_nil _ _, List.forall_mem_cons.2 ⟨⟨?_, hsub c List.mem_cons_self⟩, ?_⟩⟩
        · have hhead := List.head?_dropWhile_not isBlank cs
          rw [hrest] at hhead
          simpa using hhead
        · intro d hd
          have hblank := List.mem_takeWhile_imp hd
          refine ⟨by simpa using hblank, hsub d (List.mem_cons_of_mem _ ?_)⟩
          exact (List.takeWhile_sublist _).subset hd
      · obtain ⟨hne, hword⟩ := ih h
        refine ⟨hne, fun d hd => ⟨(hword d hd).1, hsub d (List.mem_cons_of_mem _ ?_)⟩⟩
        exact (List.dropWhile_sublist _).subset (hword d hd).2

end Text

namespace Template

/-- What may be declared by block parameters: a name that is not empty, without blanks
and bars. -/
def IsParamName (name : String) : Prop :=
  name ≠ "" ∧ ∀ c ∈ name.toList, Text.isBlank c = false ∧ c ≠ '|'

instance : DecidablePred IsParamName := fun name =>
  inferInstanceAs (Decidable (name ≠ "" ∧ ∀ c ∈ name.toList, Text.isBlank c = false ∧ c ≠ '|'))

end Template

/-- Block parameters declare names, if there is no bar between their bars. -/
theorem Phrase.isParamName_of_mem {lexeme : Lexeme} (hbar : '|' ∉ lexeme.value.toList)
    {name : String} (hname : name ∈ paramNames lexeme) : Template.IsParamName name := by
  obtain ⟨word, hword, rfl⟩ := List.mem_map.1 hname
  obtain ⟨hne, hchars⟩ := Text.mem_words hword
  constructor
  · intro hempty
    rw [← String.ofList_nil, String.ofList_inj] at hempty
    exact hne hempty
  · rw [String.toList_ofList]
    intro c hc
    refine ⟨(hchars c hc).1, ?_⟩
    rintro rfl
    exact hbar (hchars '|' hc).2

end TemplateUsage
