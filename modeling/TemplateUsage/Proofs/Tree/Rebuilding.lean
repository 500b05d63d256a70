import TemplateUsage.Proofs.Grammar.Paraphrase
import TemplateUsage.Proofs.Parsing
import TemplateUsage.Proofs.Tree.Relocation

set_option autoImplicit false

/-!
# Building again

The tokens of statements, edited, are the tokens of other statements, and these are built to
the revised tree or stop for the same reason (`exists_built_of_edit`). One such edit moves the
tokens along (`exists_built_of_relocate`).
-/

namespace TemplateUsage

open Grammar Phrase

variable {file other : String}

/-- What is built of edited tokens is what was built of the tokens, revised. -/
theorem exists_built_of_edit (edit : Edit file other) (statements : List Statement) :
    ∃ others, statementTokens others = (statementTokens statements).map edit.token ∧
      asMeanings other (fun node => [.node node]) (buildTemplate other others) =
        revisedMeanings edit
          (asMeanings file (fun node => [.node node]) (buildTemplate file statements)) := by
  have hderivation := (derivation_iff_exists_statements _ _).2 ⟨statements, rfl, rfl⟩
  obtain ⟨others, htree, hothers⟩ :=
    (derivation_iff_exists_statements _ _).1 (hderivation.rewrite edit.kind_token)
  refine ⟨others, hothers, ?_⟩
  rw [← meanings_templateTree, ← meanings_templateTree, htree]
  exact hderivation.meanings_edit edit

/-- What is built is known from its meaning, be it a tree or an error. -/
theorem asMeanings_injective {first second : Except BuildError Node}
    (h : asMeanings file (fun node => [.node node]) first =
      asMeanings file (fun node => [.node node]) second) : first = second := by
  cases first with
  | ok found =>
      cases second with
      | ok other =>
          cases h
          rfl
      | error error => cases h
  | error error =>
      cases second with
      | ok found => cases h
      | error other => rw [BuildError.stop_injective (Except.error.inj h)]

/-- If statements are built, so are those of the edited tokens, to the revised tree. -/
theorem exists_revised_of_edit (edit : Edit file other) {statements : List Statement} {root : Node}
    (h : buildTemplate file statements = .ok root) :
    ∃ others, statementTokens others = (statementTokens statements).map edit.token ∧
      buildTemplate other others = .ok (root.revise edit.revision) := by
  obtain ⟨others, hothers, hbuilt⟩ := exists_built_of_edit edit statements
  rw [h] at hbuilt
  exact ⟨others, hothers, asMeanings_injective hbuilt⟩

/-- The location from one place to another moves with the two. -/
theorem Location.relocate_cover (move : Point → Point) (first last : Location) :
    Location.relocate move (coverLocation first last) =
      coverLocation (Location.relocate move first) (Location.relocate move last) := rfl

/-- Moves tokens, and their locations with them. -/
def Grammar.Edit.relocate (file : String) (move : Point → Point) : Edit file file where
  token := Token.relocate move
  locate := Location.relocate move
  comment _ text := text
  kind_token _ := rfl
  value_token _ _ _ := rfl
  value_comment _ _ := rfl
  locate_span _ := rfl
  locate_cover := Location.relocate_cover move

/-- Statements whose tokens are moved are built to the moved trees. -/
theorem exists_built_of_relocate (move : Point → Point) {statements : List Statement}
    {nodes : List Node} (h : buildStatements file statements = .ok nodes) :
    ∃ others, statementTokens others = (statementTokens statements).map (Token.relocate move) ∧
      buildStatements file others = .ok (nodes.map (Node.relocate move)) := by
  have htemplate : buildTemplate file statements =
      .ok (.template (listLocation? file Statement.span statements) nodes) := by
    rw [buildTemplate, h]
    rfl
  obtain ⟨others, hothers, hbuilt⟩ :=
    exists_revised_of_edit (Edit.relocate file move) htemplate
  refine ⟨others, hothers, ?_⟩
  rw [buildTemplate] at hbuilt
  obtain ⟨found, hfound, hbuilt⟩ := exists_of_bind_eq_ok hbuilt
  injection hbuilt with hbuilt
  injection hbuilt with _ hmembers
  rw [hfound, hmembers, ← Node.relocateAll_eq_map]
  rfl

end TemplateUsage
