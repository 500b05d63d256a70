import TemplateUsage.Proofs.Grammar.PhraseTree

set_option autoImplicit false

/-!
# Every derivation is a phrase

Every valid tree of the grammar is the tree of a phrase, by induction on the tree
and, at a node, by the production applied there. Main statement:
`exists_templateTree`, a valid tree from the start is the tree of some statements.
-/

namespace TemplateUsage.Grammar

open Phrase

/-! ## Realised trees -/

/-- Taken as the whole, the part has the tree of a phrase. -/
def RealisedAs {α : Type} (whole part : Nonterminal) (treeOf : α → ParseTree)
    (tree : ParseTree) : Prop :=
  ∃ (mem : part ∈ whole.choices) (phrase : α), treeOf phrase = .chosen whole part mem tree

theorem RealisedAs.exists_phrase {α : Type} {whole part : Nonterminal} {treeOf : α → ParseTree}
    {tree : ParseTree} {mem : part ∈ whole.choices} (h : RealisedAs whole part treeOf tree) :
    ∃ phrase, treeOf phrase = .chosen whole part mem tree := by
  obtain ⟨_, phrase, hphrase⟩ := h
  exact ⟨phrase, hphrase⟩

/-- The tree is that of a phrase with the given name. A phrase that occurs only as a
part of another is realised by the phrase it is part of. -/
def Realised : Nonterminal → ParseTree → Prop
  | .start, tree => ∃ statements, templateTree statements = tree
  | .statement, tree => ∃ statement : Statement, statement.tree = tree
  | .text, tree => RealisedAs .statement .text Statement.tree tree
  | .htmlComment, tree => RealisedAs .statement .htmlComment Statement.tree tree
  | .curlyComment, tree => ∃ lexeme, commentTree lexeme = tree
  | .mustache, tree => ∃ mustache : Mustache, mustache.tree = tree
  | .block, tree => RealisedAs .statement .block Statement.tree tree
  | .program, tree => ∃ statements, .node .program (statementTrees statements) = tree
  | .inverse, tree => ∃ inverse : Inverse, inverse.tree? = some tree
  | .blockParams, tree => ∃ lexeme, paramsTree lexeme = tree
  | .call, tree => ∃ call : Call, call.tree = tree
  | .pair, tree => ∃ pair : Pair, pair.tree = tree
  | .expression, tree => ∃ expression : Expression, expression.tree = tree
  | .atom sort, tree => ∃ lexeme, atomTree sort lexeme = tree
  | .nested, tree => RealisedAs .expression .nested Expression.tree tree
  | .element, tree => RealisedAs .statement .element Statement.tree tree
  | .tagParts, tree => ∃ parts : List TagPart, .node .tagParts (parts.map TagPart.tree) = tree
  | .elementBody, tree => ∃ statements, .node .elementBody (statementTrees statements) = tree
  | .tagPart, tree => ∃ part : TagPart, part.tree = tree
  | .modifier, tree => RealisedAs .tagPart .modifier TagPart.tree tree
  | .attribute, tree => RealisedAs .tagPart .attribute TagPart.tree tree
  | .attributeValue, tree => ∃ value : Value, value.tree = tree
  | .quotedPart, tree => ∃ part : QuotedPart, part.tree = tree
  | .attributeText, tree =>
      ∃ lexeme, .node .attributeText [.word .attributeText lexeme] = tree

/-- The tree is realised by a phrase, if it is not a leaf. -/
def Known (tree : ParseTree) : Prop := ∀ name, tree.root = .phrase name → Realised name tree

theorem exists_map_eq {α : Type} {tree : α → ParseTree} {trees : List ParseTree}
    (h : ∀ found ∈ trees, ∃ phrase, tree phrase = found) :
    ∃ phrases : List α, phrases.map tree = trees := by
  induction trees with
  | nil => exact ⟨[], rfl⟩
  | cons first rest ih =>
      obtain ⟨⟨phrase, rfl⟩, hrest⟩ := List.forall_mem_cons.1 h
      obtain ⟨phrases, rfl⟩ := ih hrest
      exact ⟨phrase :: phrases, rfl⟩

section Fills

variable {name : Nonterminal} {items : List Item} {trees : List ParseTree}

theorem Fills.exists_phrase (h : Fills Known (.phrase name :: items) trees) :
    ∃ tree rest, trees = tree :: rest ∧ Realised name tree ∧ Fills Known items rest := by
  obtain ⟨tree, rest, rfl, hroot, htree, hrest⟩ := h.exists_one
  exact ⟨tree, rest, rfl, htree name hroot, hrest⟩

theorem Fills.exists_phrases (h : Fills Known (.many (.phrase name) :: items) trees) :
    ∃ front rest, trees = front ++ rest ∧ (∀ tree ∈ front, Realised name tree) ∧
      Fills Known items rest := by
  obtain ⟨front, rest, rfl, hfront, hrest⟩ := h.exists_many
  refine ⟨front, rest, rfl, ?_, hrest⟩
  intro tree hmem
  obtain ⟨hroot, htree⟩ := hfront tree hmem
  exact htree name hroot

theorem Fills.exists_single {kind : Kind} (h : Fills Known [.token kind] trees) :
    ∃ lexeme, trees = [.word kind lexeme] := by
  obtain ⟨lexeme, _, rfl, h₁⟩ := h.exists_token
  obtain rfl := h₁.eq_nil
  exact ⟨lexeme, rfl⟩

/-- The trees of a call between two delimiters. -/
theorem Fills.exists_delimited {left right : Kind}
    (h : Fills Known [.token left, .phrase .call, .token right] trees) :
    ∃ (opening : Lexeme) (call : Call) (closing : Lexeme),
      trees = [.word left opening, call.tree, .word right closing] := by
  obtain ⟨opening, _, rfl, h₁⟩ := h.exists_token
  obtain ⟨_, _, rfl, ⟨call, rfl⟩, h₂⟩ := h₁.exists_phrase
  obtain ⟨closing, rfl⟩ := h₂.exists_single
  exact ⟨opening, call, closing, rfl⟩

theorem Fills.exists_statements (h : Fills Known [.many (.phrase .statement)] trees) :
    ∃ statements, statementTrees statements = trees := by
  have hrealised : ∀ tree ∈ trees, ∃ statement : Statement, statement.tree = tree := by
    intro tree hmem
    obtain ⟨hroot, htree⟩ := h.all_many tree hmem
    exact htree .statement hroot
  obtain ⟨statements, rfl⟩ := exists_map_eq hrealised
  exact ⟨statements, statementTrees_eq_map statements⟩

/-- The trees of a head, whatever it opens. -/
theorem Fills.exists_head {kind : Kind} {params : Bool}
    (h : Fills Known (.token kind :: .phrase .call ::
      (Item.optional params .blockParams ++ .token .closeCurly :: items)) trees) :
    ∃ (head : Head) (rest : List ParseTree), trees = head.trees kind rest ∧
      head.params.isSome = params ∧ Fills Known items rest := by
  obtain ⟨opening, _, rfl, h₁⟩ := h.exists_token
  obtain ⟨_, _, rfl, ⟨call, rfl⟩, h₂⟩ := h₁.exists_phrase
  obtain ⟨found, _, rfl, hpresent, hfound, h₃⟩ := h₂.exists_optional
  obtain ⟨closing, rest, rfl, h₄⟩ := h₃.exists_token
  cases found with
  | none => exact ⟨⟨opening, call, none, closing⟩, rest, rfl, hpresent, h₄⟩
  | some tree =>
      obtain ⟨hroot, htree⟩ := hfound tree rfl
      obtain ⟨names, rfl⟩ := htree .blockParams hroot
      exact ⟨⟨opening, call, some names, closing⟩, rest, rfl, hpresent, h₄⟩

/-- The tree of an inverse, present or not. -/
theorem Fills.exists_inverse {present : Bool}
    (h : Fills Known (Item.optional present .inverse ++ items) trees) :
    ∃ (inverse : Inverse) (rest : List ParseTree), trees = inverse.tree?.toList ++ rest ∧
      inverse.isPresent = present ∧ Fills Known items rest := by
  obtain ⟨found, rest, rfl, hpresent, hfound, h₁⟩ := h.exists_optional
  cases found with
  | none =>
      refine ⟨.absent, rest, ?_, hpresent, h₁⟩
      rw [Inverse.tree?]
  | some tree =>
      obtain ⟨hroot, htree⟩ := hfound tree rfl
      obtain ⟨inverse, hinverse⟩ := htree .inverse hroot
      refine ⟨inverse, rest, ?_, ?_, h₁⟩
      · rw [hinverse]
      · rw [← inverse.isSome_tree?, hinverse]
        exact hpresent

/-- The trees of an opening tag up to its end. -/
theorem Fills.exists_tag
    (h : Fills Known (.token .startTag :: .phrase .tagParts :: items) trees) :
    ∃ (tag : Tag) (rest : List ParseTree), trees = tag.trees rest ∧ Fills Known items rest := by
  obtain ⟨name, _, rfl, h₁⟩ := h.exists_token
  obtain ⟨_, rest, rfl, ⟨parts, rfl⟩, h₂⟩ := h₁.exists_phrase
  exact ⟨⟨name, parts⟩, rest, rfl, h₂⟩

end Fills

/-! ## Productions -/

/-- A realised phrase realises the phrase it is taken as. -/
theorem realised_choice {whole part : Nonterminal} (mem : part ∈ whole.choices) {tree : ParseTree}
    (h : Realised part tree) : Realised whole (.node (.choice whole part mem) [tree]) := by
  -- A part that is no phrase of its own is realised by the whole already.
  cases whole with
  | statement =>
      simp only [Nonterminal.choices, List.mem_cons, List.not_mem_nil, or_false] at mem
      rcases mem with rfl | rfl | rfl | rfl | rfl | rfl
      · exact RealisedAs.exists_phrase h
      · exact RealisedAs.exists_phrase h
      · obtain ⟨lexeme, rfl⟩ := h
        refine ⟨.curlyComment lexeme, ?_⟩
        rw [Statement.tree, ParseTree.chosen]
      · obtain ⟨mustache, rfl⟩ := h
        refine ⟨.mustache mustache, ?_⟩
        rw [Statement.tree, ParseTree.chosen]
      · exact RealisedAs.exists_phrase h
      · exact RealisedAs.exists_phrase h
  | expression =>
      have hatom (sort : Atom) (h : Realised (.atom sort) tree) :
          Realised .expression
            (.node (.choice .expression (.atom sort) (atom_mem_choices sort)) [tree]) := by
        obtain ⟨lexeme, rfl⟩ := h
        refine ⟨.atom sort lexeme, ?_⟩
        rw [Expression.tree, ParseTree.chosen]
      simp only [Nonterminal.choices, List.mem_cons, List.not_mem_nil, or_false] at mem
      rcases mem with rfl | rfl | rfl | rfl | rfl | rfl | rfl
      · exact hatom .path h
      · exact RealisedAs.exists_phrase h
      · exact hatom .string h
      · exact hatom .number h
      · exact hatom .boolean h
      · exact hatom .null h
      · exact hatom .undefined h
  | tagPart =>
      simp only [Nonterminal.choices, List.mem_cons, List.not_mem_nil, or_false] at mem
      rcases mem with rfl | rfl | rfl | rfl
      · exact RealisedAs.exists_phrase h
      · exact RealisedAs.exists_phrase h
      · obtain ⟨lexeme, rfl⟩ := h
        exact ⟨.params lexeme, rfl⟩
      · obtain ⟨lexeme, rfl⟩ := h
        exact ⟨.comment lexeme, rfl⟩
  | attributeValue =>
      simp only [Nonterminal.choices, List.mem_cons, List.not_mem_nil, or_false] at mem
      subst mem
      obtain ⟨mustache, rfl⟩ := h
      exact ⟨.mustache mustache, rfl⟩
  | quotedPart =>
      simp only [Nonterminal.choices, List.mem_cons, List.not_mem_nil, or_false] at mem
      rcases mem with rfl | rfl
      · obtain ⟨lexeme, rfl⟩ := h
        exact ⟨.text lexeme, rfl⟩
      · obtain ⟨mustache, rfl⟩ := h
        exact ⟨.mustache mustache, rfl⟩
  | _ => cases mem

/-- A production applied to known trees gives a realised one. -/
theorem realised_node {production : Production} {children : List ParseTree}
    (h : Fills Known production.right children) :
    Realised production.left (.node production children) := by
  -- The items on the right are taken one after the other, each with the children it allows.
  cases production with
  | start =>
      obtain ⟨statements, rfl⟩ := Fills.exists_statements h
      exact ⟨statements, rfl⟩
  | choice whole part mem =>
      obtain ⟨tree, _, rfl, hpart, h₁⟩ := Fills.exists_phrase h
      obtain rfl := h₁.eq_nil
      exact realised_choice mem hpart
  | text =>
      obtain ⟨lexeme, rfl⟩ := Fills.exists_single h
      refine ⟨by decide, .text lexeme, ?_⟩
      rw [Statement.tree]
  | htmlComment =>
      obtain ⟨lexeme, rfl⟩ := Fills.exists_single h
      refine ⟨by decide, .htmlComment lexeme, ?_⟩
      rw [Statement.tree]
  | curlyComment =>
      obtain ⟨lexeme, rfl⟩ := Fills.exists_single h
      exact ⟨lexeme, rfl⟩
  | mustache trusting =>
      cases trusting with
      | false =>
          obtain ⟨opening, call, closing, rfl⟩ := Fills.exists_delimited h
          exact ⟨⟨false, opening, call, closing⟩, rfl⟩
      | true =>
          obtain ⟨opening, call, closing, rfl⟩ := Fills.exists_delimited h
          exact ⟨⟨true, opening, call, closing⟩, rfl⟩
  | block params inverse =>
      obtain ⟨head, _, rfl, rfl, h₁⟩ := Fills.exists_head h
      obtain ⟨_, _, rfl, ⟨program, rfl⟩, h₂⟩ := h₁.exists_phrase
      obtain ⟨ending, _, rfl, rfl, h₃⟩ := h₂.exists_inverse
      obtain ⟨opening, _, rfl, h₄⟩ := h₃.exists_token
      obtain ⟨_, _, rfl, ⟨path, rfl⟩, h₅⟩ := h₄.exists_phrase
      obtain ⟨closing, rfl⟩ := h₅.exists_single
      refine ⟨by decide, .block head program ending ⟨opening, path, closing⟩, ?_⟩
      rw [Statement.tree]
      rfl
  | program =>
      obtain ⟨statements, rfl⟩ := Fills.exists_statements h
      exact ⟨statements, rfl⟩
  | otherwise =>
      obtain ⟨opening, _, rfl, h₁⟩ := h.exists_token
      obtain ⟨closing, _, rfl, h₂⟩ := h₁.exists_token
      obtain ⟨_, _, rfl, ⟨program, rfl⟩, h₃⟩ := h₂.exists_phrase
      obtain rfl := h₃.eq_nil
      refine ⟨.otherwise opening closing program, ?_⟩
      rw [Inverse.tree?]
      rfl
  | chained params inverse =>
      obtain ⟨head, _, rfl, rfl, h₁⟩ := Fills.exists_head h
      obtain ⟨_, _, rfl, ⟨program, rfl⟩, h₂⟩ := h₁.exists_phrase
      rw [← List.append_nil (Item.optional _ _)] at h₂
      obtain ⟨ending, _, rfl, rfl, h₃⟩ := h₂.exists_inverse
      obtain rfl := h₃.eq_nil
      refine ⟨.chained head program ending, ?_⟩
      rw [Inverse.tree?, List.append_nil]
  | blockParams =>
      obtain ⟨lexeme, rfl⟩ := Fills.exists_single h
      exact ⟨lexeme, rfl⟩
  | call =>
      obtain ⟨_, _, rfl, ⟨callee, rfl⟩, h₁⟩ := Fills.exists_phrase h
      obtain ⟨_, _, rfl, harguments, h₂⟩ := h₁.exists_phrases
      obtain ⟨_, _, rfl, hpairs, h₃⟩ := h₂.exists_phrases
      obtain rfl := h₃.eq_nil
      obtain ⟨arguments, rfl⟩ := exists_map_eq harguments
      obtain ⟨pairs, rfl⟩ := exists_map_eq hpairs
      refine ⟨.mk callee arguments pairs, ?_⟩
      rw [Call.tree, argumentTrees_eq_map, pairTrees_eq_map, List.append_nil]
  | pair =>
      obtain ⟨key, _, rfl, h₁⟩ := h.exists_token
      obtain ⟨_, _, rfl, ⟨value, rfl⟩, h₂⟩ := h₁.exists_phrase
      obtain rfl := h₂.eq_nil
      refine ⟨.mk key value, ?_⟩
      rw [Pair.tree]
      rfl
  | atom sort =>
      obtain ⟨lexeme, rfl⟩ := Fills.exists_single h
      exact ⟨lexeme, rfl⟩
  | nested =>
      obtain ⟨opening, call, closing, rfl⟩ := Fills.exists_delimited h
      refine ⟨by decide, .nested opening call closing, ?_⟩
      rw [Expression.tree]
  | element =>
      obtain ⟨tag, _, rfl, h₁⟩ := Fills.exists_tag h
      obtain ⟨tagEnd, _, rfl, h₂⟩ := h₁.exists_token
      obtain ⟨_, _, rfl, ⟨body, rfl⟩, h₃⟩ := h₂.exists_phrase
      obtain ⟨endTag, rfl⟩ := h₃.exists_single
      refine ⟨by decide, .element tag tagEnd body endTag, ?_⟩
      rw [Statement.tree]
      rfl
  | selfClosing =>
      obtain ⟨tag, _, rfl, h₁⟩ := Fills.exists_tag h
      obtain ⟨tagEnd, rfl⟩ := h₁.exists_single
      refine ⟨by decide, .selfClosing tag tagEnd, ?_⟩
      rw [Statement.tree]
  | void =>
      obtain ⟨tag, _, rfl, h₁⟩ := Fills.exists_tag h
      obtain ⟨tagEnd, rfl⟩ := h₁.exists_single
      refine ⟨by decide, .void tag tagEnd, ?_⟩
      rw [Statement.tree]
  | tagParts =>
      obtain ⟨_, _, rfl, hparts, h₁⟩ := Fills.exists_phrases h
      obtain rfl := h₁.eq_nil
      obtain ⟨parts, rfl⟩ := exists_map_eq hparts
      rw [List.append_nil]
      exact ⟨parts, rfl⟩
  | elementBody =>
      obtain ⟨statements, rfl⟩ := Fills.exists_statements h
      exact ⟨statements, rfl⟩
  | modifier =>
      obtain ⟨opening, call, closing, rfl⟩ := Fills.exists_delimited h
      exact ⟨by decide, .modifier opening call closing, rfl⟩
  | «attribute» valued =>
      cases valued with
      | false =>
          obtain ⟨name, rfl⟩ := Fills.exists_single h
          exact ⟨by decide, .flag name, rfl⟩
      | true =>
          obtain ⟨name, _, rfl, h₁⟩ := h.exists_token
          obtain ⟨equals, _, rfl, h₂⟩ := h₁.exists_token
          obtain ⟨_, _, rfl, ⟨value, rfl⟩, h₃⟩ := h₂.exists_phrase
          obtain rfl := h₃.eq_nil
          exact ⟨by decide, .attribute name equals value, rfl⟩
  | unquotedValue =>
      obtain ⟨lexeme, rfl⟩ := Fills.exists_single h
      exact ⟨.text lexeme, rfl⟩
  | quotedValue =>
      obtain ⟨opening, _, rfl, h₁⟩ := h.exists_token
      obtain ⟨_, _, rfl, hparts, h₂⟩ := h₁.exists_phrases
      obtain ⟨closing, rfl⟩ := h₂.exists_single
      obtain ⟨parts, rfl⟩ := exists_map_eq hparts
      exact ⟨.quoted opening parts closing, rfl⟩
  | attributeText =>
      obtain ⟨lexeme, rfl⟩ := Fills.exists_single h
      exact ⟨lexeme, rfl⟩

/-- Every valid tree is realised. -/
theorem ParseTree.Valid.known {tree : ParseTree} (h : tree.Valid) : Known tree := by
  induction h with
  | leaf token => nofun
  | node hright _ ih =>
      rintro name ⟨⟩
      exact realised_node ⟨hright, ih⟩

/-- Every valid tree from the start is the tree of some statements. -/
theorem exists_templateTree {tree : ParseTree} (h : tree.Valid)
    (hroot : tree.root = .phrase .start) :
    ∃ statements, templateTree statements = tree :=
  h.known .start hroot

end TemplateUsage.Grammar
