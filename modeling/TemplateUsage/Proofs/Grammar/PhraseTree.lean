import TemplateUsage.Proofs.Grammar.Derivation

set_option autoImplicit false

/-!
# Phrases as derivation trees

Each phrase is written out as a tree of the grammar. Main statements:
`tokens_templateTree`, the leaves of a tree are the tokens of its phrase, and
`valid_templateTree`, the tree is valid.
-/

namespace TemplateUsage.Grammar

/-- A leaf of the given kind. -/
def ParseTree.word (kind : Kind) (lexeme : Lexeme) : ParseTree := .leaf ⟨kind, lexeme⟩

/-- A phrase that is taken as another. -/
def ParseTree.chosen (whole part : Nonterminal) (mem : part ∈ whole.choices)
    (tree : ParseTree) : ParseTree :=
  .node (.choice whole part mem) [tree]

/-- A valid tree of the given phrase. -/
def ParseTree.Of (name : Nonterminal) (tree : ParseTree) : Prop :=
  tree.root = .phrase name ∧ tree.Valid

@[simp] theorem ParseTree.tokens_word (kind : Kind) (lexeme : Lexeme) :
    (ParseTree.word kind lexeme).tokens = [⟨kind, lexeme⟩] := by
  rw [ParseTree.word, ParseTree.tokens]

@[simp] theorem ParseTree.tokens_node (production : Production) (children : List ParseTree) :
    (ParseTree.node production children).tokens = forestTokens children := by
  rw [ParseTree.tokens]

@[simp] theorem ParseTree.tokens_chosen (whole part : Nonterminal) (mem : part ∈ whole.choices)
    (tree : ParseTree) : (ParseTree.chosen whole part mem tree).tokens = tree.tokens := by
  simp [ParseTree.chosen, forestTokens]

/-- A node is a valid tree of the left-hand side if its children fill the right-hand side. -/
theorem ParseTree.of_node {production : Production} {children : List ParseTree}
    (h : Fills ParseTree.Valid production.right children) :
    ParseTree.Of production.left (.node production children) :=
  ⟨rfl, ParseTree.valid_node_iff.2 h⟩

/-- A token of the right-hand side is filled by a leaf of its kind. -/
theorem Fills.word {kind : Kind} {lexeme : Lexeme} {items : List Item} {trees : List ParseTree}
    (h : Fills ParseTree.Valid items trees) :
    Fills ParseTree.Valid (.token kind :: items) (.word kind lexeme :: trees) :=
  .one rfl (.leaf _) h

/-- A phrase of the right-hand side is filled by a valid tree of it. -/
theorem Fills.phrase {name : Nonterminal} {tree : ParseTree} {items : List Item}
    {trees : List ParseTree} (htree : tree.Of name) (h : Fills ParseTree.Valid items trees) :
    Fills ParseTree.Valid (.phrase name :: items) (tree :: trees) :=
  .one htree.1 htree.2 h

/-- A valid tree of one of the choices is a valid tree of the whole. -/
theorem ParseTree.of_chosen {whole part : Nonterminal} (mem : part ∈ whole.choices)
    {tree : ParseTree} (h : tree.Of part) : (ParseTree.chosen whole part mem tree).Of whole :=
  ParseTree.of_node (.phrase h .nil)

end TemplateUsage.Grammar

namespace TemplateUsage.Phrase

open Grammar

/-! ## Trees of phrases -/

/-- Tree of an atom by its own name. -/
def atomTree (sort : Atom) (lexeme : Lexeme) : ParseTree :=
  .node (.atom sort) [.word sort.kind lexeme]

/-- Every sort of atom may stand as an expression. -/
theorem atom_mem_choices (sort : Atom) :
    Nonterminal.atom sort ∈ Nonterminal.expression.choices := by
  cases sort <;> decide

mutual

/-- Tree of an expression. -/
def Expression.tree : Expression → ParseTree
  | .atom sort lexeme =>
      .chosen .expression (.atom sort) (atom_mem_choices sort) (atomTree sort lexeme)
  | .nested opening call closing =>
      .chosen .expression .nested (by decide)
        (.node .nested [.word .openParen opening, call.tree, .word .closeParen closing])

/-- Tree of a call. -/
def Call.tree : Call → ParseTree
  | .mk callee arguments pairs =>
      .node .call (callee.tree :: (argumentTrees arguments ++ pairTrees pairs))

/-- Trees of positional arguments. -/
def argumentTrees : List Expression → List ParseTree
  | [] => []
  | argument :: rest => argument.tree :: argumentTrees rest

/-- Tree of a pair. -/
def Pair.tree : Pair → ParseTree
  | .mk key value => .node .pair [.word .hashKey key, value.tree]

/-- Trees of pairs. -/
def pairTrees : List Pair → List ParseTree
  | [] => []
  | pair :: rest => pair.tree :: pairTrees rest

end

/-- Tree of a mustache by its own name. -/
def Mustache.tree (mustache : Mustache) : ParseTree :=
  .node (.mustache mustache.trusting)
    [.word (if mustache.trusting then .openTriple else .openCurly) mustache.opening,
      mustache.call.tree,
      .word (if mustache.trusting then .closeTriple else .closeCurly) mustache.closing]

/-- Tree of block parameters. -/
def paramsTree (lexeme : Lexeme) : ParseTree := .node .blockParams [.word .blockParams lexeme]

/-- Tree of a curly comment by its own name. -/
def commentTree (lexeme : Lexeme) : ParseTree := .node .curlyComment [.word .curlyComment lexeme]

/-- Tree of a part of a quoted value. -/
def QuotedPart.tree : QuotedPart → ParseTree
  | .text lexeme =>
      .chosen .quotedPart .attributeText (by decide)
        (.node .attributeText [.word .attributeText lexeme])
  | .mustache curly => .chosen .quotedPart .mustache (by decide) curly.tree

/-- Tree of a value. -/
def Value.tree : Value → ParseTree
  | .text lexeme => .node .unquotedValue [.word .attributeText lexeme]
  | .mustache curly => .chosen .attributeValue .mustache (by decide) curly.tree
  | .quoted opening parts closing =>
      .node .quotedValue
        (.word .quoteOpen opening :: (parts.map QuotedPart.tree ++ [.word .quoteClose closing]))

/-- Tree of a part of an opening tag. -/
def TagPart.tree : TagPart → ParseTree
  | .flag name =>
      .chosen .tagPart .attribute (by decide)
        (.node (.attribute false) [.word .attributeName name])
  | .attribute name equals value =>
      .chosen .tagPart .attribute (by decide)
        (.node (.attribute true) [.word .attributeName name, .word .equals equals, value.tree])
  | .modifier opening call closing =>
      .chosen .tagPart .modifier (by decide)
        (.node .modifier [.word .openCurly opening, call.tree, .word .closeCurly closing])
  | .params lexeme => .chosen .tagPart .blockParams (by decide) (paramsTree lexeme)
  | .comment lexeme => .chosen .tagPart .curlyComment (by decide) (commentTree lexeme)

/-- Trees of an opening tag up to its end, before the given ones. -/
def Tag.trees (tag : Tag) (rest : List ParseTree) : List ParseTree :=
  .word .startTag tag.name :: .node .tagParts (tag.parts.map TagPart.tree) :: rest

/-- Trees of a head that starts with the given kind, before the given ones. -/
def Head.trees (kind : Kind) (head : Head) (rest : List ParseTree) : List ParseTree :=
  .word kind head.opening :: head.call.tree ::
    ((head.params.map paramsTree).toList ++ .word .closeCurly head.closing :: rest)

/-- Trees of the closing of a block. -/
def BlockEnd.trees (close : BlockEnd) : List ParseTree :=
  [.word .openEndBlock close.opening, atomTree .path close.path, .word .closeCurly close.closing]

/-- Whether there is an inverse. -/
def Inverse.isPresent : Inverse → Bool
  | .absent => false
  | .otherwise _ _ _ | .chained _ _ _ => true

mutual

/-- Tree of a statement. -/
def Statement.tree : Statement → ParseTree
  | .text lexeme => .chosen .statement .text (by decide) (.node .text [.word .text lexeme])
  | .htmlComment lexeme =>
      .chosen .statement .htmlComment (by decide) (.node .htmlComment [.word .htmlComment lexeme])
  | .curlyComment lexeme => .chosen .statement .curlyComment (by decide) (commentTree lexeme)
  | .mustache curly => .chosen .statement .mustache (by decide) curly.tree
  | .block head program inverse close =>
      .chosen .statement .block (by decide)
        (.node (.block head.params.isSome inverse.isPresent)
          (head.trees .openBlock (.node .program (statementTrees program) ::
            (inverse.tree?.toList ++ close.trees))))
  | .element tag tagEnd body endTag =>
      .chosen .statement .element (by decide)
        (.node .element (tag.trees [.word .tagEnd tagEnd,
          .node .elementBody (statementTrees body), .word .endTag endTag]))
  | .selfClosing tag tagEnd =>
      .chosen .statement .element (by decide)
        (.node .selfClosing (tag.trees [.word .tagSelfClose tagEnd]))
  | .void tag tagEnd =>
      .chosen .statement .element (by decide)
        (.node .void (tag.trees [.word .voidTagEnd tagEnd]))

/-- Tree of an inverse, if there is one. -/
def Inverse.tree? : Inverse → Option ParseTree
  | .absent => none
  | .otherwise opening closing program =>
      some (.node .otherwise [.word .openElse opening, .word .closeCurly closing,
        .node .program (statementTrees program)])
  | .chained head program inverse =>
      some (.node (.chained head.params.isSome inverse.isPresent)
        (head.trees .openElse (.node .program (statementTrees program) ::
          inverse.tree?.toList)))

/-- Trees of statements. -/
def statementTrees : List Statement → List ParseTree
  | [] => []
  | statement :: rest => statement.tree :: statementTrees rest

end

/-- Tree of a template. -/
def templateTree (statements : List Statement) : ParseTree :=
  .node .start (statementTrees statements)

theorem argumentTrees_eq_map (arguments : List Expression) :
    argumentTrees arguments = arguments.map Expression.tree := by
  induction arguments with
  | nil => rfl
  | cons argument rest ih => rw [argumentTrees, ih, List.map_cons]

theorem pairTrees_eq_map (pairs : List Pair) : pairTrees pairs = pairs.map Pair.tree := by
  induction pairs with
  | nil => rfl
  | cons pair rest ih => rw [pairTrees, ih, List.map_cons]

theorem statementTrees_eq_map (statements : List Statement) :
    statementTrees statements = statements.map Statement.tree := by
  induction statements with
  | nil => rfl
  | cons statement rest ih => rw [statementTrees, ih, List.map_cons]

/-- An inverse has a tree if and only if it is there. -/
theorem Inverse.isSome_tree? (inverse : Inverse) :
    inverse.tree?.isSome = inverse.isPresent := by
  cases inverse with
  | absent | otherwise | chained => simp [Inverse.tree?, Inverse.isPresent]

/-! ## The leaves are the tokens -/

mutual

/-- The leaves of an expression are its tokens. A call has expressions for arguments, so this
goes with the same of calls, arguments and pairs. -/
theorem Expression.tokens_tree (expression : Expression) :
    expression.tree.tokens = expression.tokens := by
  cases expression with
  | atom sort lexeme => simp [Expression.tree, Expression.tokens, atomTree, forestTokens]
  | nested opening call closing =>
      simp [Expression.tree, Expression.tokens, forestTokens, Call.tokens_tree call]

/-- The leaves of a call are those of the callee, then of the arguments, then of the pairs. -/
theorem Call.tokens_tree (call : Call) : call.tree.tokens = call.tokens := by
  cases call with
  | mk callee arguments pairs =>
      simp [Call.tree, Call.tokens, forestTokens, Expression.tokens_tree callee,
        forestTokens_argumentTrees arguments, forestTokens_pairTrees pairs]

/-- The leaves of arguments are their tokens, one argument after the other. -/
theorem forestTokens_argumentTrees (arguments : List Expression) :
    forestTokens (argumentTrees arguments) = argumentTokens arguments := by
  cases arguments with
  | nil => simp [argumentTrees, argumentTokens, forestTokens]
  | cons argument rest =>
      simp [argumentTrees, argumentTokens, forestTokens, Expression.tokens_tree argument,
        forestTokens_argumentTrees rest]

theorem Pair.tokens_tree (pair : Pair) : pair.tree.tokens = pair.tokens := by
  cases pair with
  | mk key value => simp [Pair.tree, Pair.tokens, forestTokens, Expression.tokens_tree value]

/-- The leaves of pairs are their tokens, one pair after the other. -/
theorem forestTokens_pairTrees (pairs : List Pair) :
    forestTokens (pairTrees pairs) = pairTokens pairs := by
  cases pairs with
  | nil => simp [pairTrees, pairTokens, forestTokens]
  | cons pair rest =>
      simp [pairTrees, pairTokens, forestTokens, Pair.tokens_tree pair,
        forestTokens_pairTrees rest]

end

attribute [simp] Expression.tokens_tree Call.tokens_tree Pair.tokens_tree

@[simp] theorem Mustache.tokens_tree (mustache : Mustache) :
    mustache.tree.tokens = mustache.tokens := by
  simp [Mustache.tree, Mustache.tokens, forestTokens]

@[simp] theorem tokens_paramsTree (lexeme : Lexeme) :
    (paramsTree lexeme).tokens = [⟨.blockParams, lexeme⟩] := by
  simp [paramsTree, forestTokens]

@[simp] theorem tokens_commentTree (lexeme : Lexeme) :
    (commentTree lexeme).tokens = [⟨.curlyComment, lexeme⟩] := by
  simp [commentTree, forestTokens]

/-- The leaves of trees of phrases, for any sort of phrase. -/
theorem forestTokens_map {α : Type} {tree : α → ParseTree} {tokens : α → List Token}
    (h : ∀ phrase, (tree phrase).tokens = tokens phrase) (phrases : List α) :
    forestTokens (phrases.map tree) = phrases.flatMap tokens := by
  induction phrases with
  | nil => rfl
  | cons phrase rest ih => rw [List.map_cons, forestTokens, h, ih, List.flatMap_cons]

theorem QuotedPart.tokens_tree (part : QuotedPart) : part.tree.tokens = part.tokens := by
  cases part with
  | text lexeme => simp [QuotedPart.tree, QuotedPart.tokens, forestTokens]
  | mustache curly => simp [QuotedPart.tree, QuotedPart.tokens]

/-- The leaves of a value are its tokens, the quotes among them. -/
@[simp] theorem Value.tokens_tree (value : Value) : value.tree.tokens = value.tokens := by
  cases value with
  | text lexeme => simp [Value.tree, Value.tokens, forestTokens]
  | mustache curly => simp [Value.tree, Value.tokens]
  | quoted opening parts closing =>
      simp [Value.tree, Value.tokens, forestTokens, forestTokens_map QuotedPart.tokens_tree]

theorem TagPart.tokens_tree (part : TagPart) : part.tree.tokens = part.tokens := by
  cases part with
  | flag name => simp [TagPart.tree, TagPart.tokens, forestTokens]
  | «attribute» name equals value => simp [TagPart.tree, TagPart.tokens, forestTokens]
  | modifier opening call closing => simp [TagPart.tree, TagPart.tokens, forestTokens]
  | params lexeme => simp [TagPart.tree, TagPart.tokens]
  | comment lexeme => simp [TagPart.tree, TagPart.tokens]

/-- The leaves of an opening tag stand before those of the trees after it. -/
@[simp] theorem Tag.tokens_trees (tag : Tag) (rest : List ParseTree) :
    forestTokens (tag.trees rest) = tag.tokens ++ forestTokens rest := by
  simp [Tag.trees, Tag.tokens, forestTokens, forestTokens_map TagPart.tokens_tree]

/-- The leaves of the head of a block stand before those of the trees after it. -/
@[simp] theorem Head.tokens_trees (kind : Kind) (head : Head) (rest : List ParseTree) :
    forestTokens (head.trees kind rest) = head.tokens kind ++ forestTokens rest := by
  obtain ⟨opening, call, params, closing⟩ := head
  cases params <;> simp [Head.trees, Head.tokens, forestTokens]

@[simp] theorem BlockEnd.tokens_trees (close : BlockEnd) :
    forestTokens close.trees = close.tokens := by
  simp [BlockEnd.trees, BlockEnd.tokens, forestTokens, atomTree, Atom.kind]

mutual

/-- The leaves of a statement are its tokens. -/
theorem Statement.tokens_tree (statement : Statement) :
    statement.tree.tokens = statement.tokens := by
  cases statement with
  | text lexeme => simp [Statement.tree, Statement.tokens, forestTokens]
  | htmlComment lexeme => simp [Statement.tree, Statement.tokens, forestTokens]
  | curlyComment lexeme => simp [Statement.tree, Statement.tokens]
  | mustache curly => simp [Statement.tree, Statement.tokens]
  | block head program inverse close =>
      simp [Statement.tree, Statement.tokens, forestTokens, forestTokens_statementTrees program,
        Inverse.tokens_tree? inverse]
  | element tag tagEnd body endTag =>
      simp [Statement.tree, Statement.tokens, forestTokens, forestTokens_statementTrees body]
  | selfClosing tag tagEnd => simp [Statement.tree, Statement.tokens, forestTokens]
  | void tag tagEnd => simp [Statement.tree, Statement.tokens, forestTokens]

/-- The leaves of an inverse are its tokens, and an absent one has none. -/
theorem Inverse.tokens_tree? (inverse : Inverse) :
    forestTokens inverse.tree?.toList = inverse.tokens := by
  cases inverse with
  | absent => simp [Inverse.tree?, Inverse.tokens, forestTokens]
  | otherwise opening closing program =>
      simp [Inverse.tree?, Inverse.tokens, forestTokens, forestTokens_statementTrees program]
  | chained head program inverse =>
      simp [Inverse.tree?, Inverse.tokens, forestTokens, forestTokens_statementTrees program,
        Inverse.tokens_tree? inverse]

/-- The leaves of statements are their tokens, one statement after the other. -/
theorem forestTokens_statementTrees (statements : List Statement) :
    forestTokens (statementTrees statements) = statementTokens statements := by
  cases statements with
  | nil => simp [statementTrees, statementTokens, forestTokens]
  | cons statement rest =>
      simp [statementTrees, statementTokens, forestTokens, Statement.tokens_tree statement,
        forestTokens_statementTrees rest]

end

/-- The leaves of the tree of a template are its tokens. -/
theorem tokens_templateTree (statements : List Statement) :
    (templateTree statements).tokens = statementTokens statements := by
  rw [templateTree, ParseTree.tokens_node, forestTokens_statementTrees]

/-! ## The trees are valid -/

theorem of_atomTree (sort : Atom) (lexeme : Lexeme) :
    (atomTree sort lexeme).Of (.atom sort) :=
  ParseTree.of_node (.word .nil)

mutual

/-- An expression is a valid tree: an atom, or a call between parentheses. -/
theorem Expression.of_tree (expression : Expression) : expression.tree.Of .expression := by
  cases expression with
  | atom sort lexeme =>
      rw [Expression.tree]
      exact ParseTree.of_chosen _ (of_atomTree sort lexeme)
  | nested opening call closing =>
      rw [Expression.tree]
      exact ParseTree.of_chosen _
        (ParseTree.of_node (.word (.phrase (Call.of_tree call) (.word .nil))))

/-- A call is a valid tree: an expression, any number of arguments and any number of pairs. -/
theorem Call.of_tree (call : Call) : call.tree.Of .call := by
  cases call with
  | mk callee arguments pairs =>
      rw [Call.tree]
      exact ParseTree.of_node (.phrase (Expression.of_tree callee)
        (.many (of_argumentTrees arguments) (.only_many (of_pairTrees pairs))))

/-- Arguments are valid trees of expressions. -/
theorem of_argumentTrees (arguments : List Expression) :
    ∀ tree ∈ argumentTrees arguments, tree.Of .expression := by
  cases arguments with
  | nil =>
      rw [argumentTrees]
      nofun
  | cons argument rest =>
      rw [argumentTrees]
      exact List.forall_mem_cons.2 ⟨Expression.of_tree argument, of_argumentTrees rest⟩

theorem Pair.of_tree (pair : Pair) : pair.tree.Of .pair := by
  cases pair with
  | mk key value =>
      rw [Pair.tree]
      exact ParseTree.of_node (.word (.phrase (Expression.of_tree value) .nil))

theorem of_pairTrees (pairs : List Pair) : ∀ tree ∈ pairTrees pairs, tree.Of .pair := by
  cases pairs with
  | nil =>
      rw [pairTrees]
      nofun
  | cons pair rest =>
      rw [pairTrees]
      exact List.forall_mem_cons.2 ⟨Pair.of_tree pair, of_pairTrees rest⟩

end

/-- A mustache is a valid tree, by the rule for two braces or by the one for three. -/
theorem Mustache.of_tree (mustache : Mustache) : mustache.tree.Of .mustache := by
  obtain ⟨trusting, opening, call, closing⟩ := mustache
  cases trusting with
  | false => exact ParseTree.of_node (.word (.phrase call.of_tree (.word .nil)))
  | true => exact ParseTree.of_node (.word (.phrase call.of_tree (.word .nil)))

theorem of_paramsTree (lexeme : Lexeme) : (paramsTree lexeme).Of .blockParams :=
  ParseTree.of_node (.word .nil)

theorem of_commentTree (lexeme : Lexeme) : (commentTree lexeme).Of .curlyComment :=
  ParseTree.of_node (.word .nil)

theorem QuotedPart.of_tree (part : QuotedPart) : part.tree.Of .quotedPart := by
  cases part with
  | text lexeme => exact ParseTree.of_chosen _ (ParseTree.of_node (.word .nil))
  | mustache curly => exact ParseTree.of_chosen _ curly.of_tree

/-- A value is a valid tree: a text, a mustache, or any number of both between quotes. -/
theorem Value.of_tree (value : Value) : value.tree.Of .attributeValue := by
  cases value with
  | text lexeme => exact ParseTree.of_node (.word .nil)
  | mustache curly => exact ParseTree.of_chosen _ curly.of_tree
  | quoted opening parts closing =>
      refine ParseTree.of_node (.word (.many ?_ (.word .nil)))
      exact List.forall_mem_map.2 fun part _ => part.of_tree

/-- Each sort of part of an opening tag is one of the choices for parts. -/
theorem TagPart.of_tree (part : TagPart) : part.tree.Of .tagPart := by
  cases part with
  | flag name => exact ParseTree.of_chosen _ (ParseTree.of_node (.word .nil))
  | «attribute» name equals value =>
      exact ParseTree.of_chosen _ (ParseTree.of_node (.word (.word (.phrase value.of_tree .nil))))
  | modifier opening call closing =>
      exact ParseTree.of_chosen _ (ParseTree.of_node (.word (.phrase call.of_tree (.word .nil))))
  | params lexeme => exact ParseTree.of_chosen _ (of_paramsTree lexeme)
  | comment lexeme => exact ParseTree.of_chosen _ (of_commentTree lexeme)

/-- The trees of an opening tag fill the front of a right-hand side that starts with one. -/
theorem Tag.fills_trees (tag : Tag) {items : List Item} {rest : List ParseTree}
    (h : Fills ParseTree.Valid items rest) :
    Fills ParseTree.Valid (.token .startTag :: .phrase .tagParts :: items) (tag.trees rest) := by
  refine .word (.phrase (ParseTree.of_node (.only_many ?_)) h)
  exact List.forall_mem_map.2 fun part _ => part.of_tree

/-- The trees of a head fill the front of a right-hand side, where the phrase for block
parameters stands exactly if the head has some. -/
theorem Head.fills_trees (kind : Kind) (head : Head) {items : List Item} {rest : List ParseTree}
    (h : Fills ParseTree.Valid items rest) :
    Fills ParseTree.Valid (.token kind :: .phrase .call ::
      (Item.optional head.params.isSome .blockParams ++ .token .closeCurly :: items))
      (head.trees kind rest) := by
  refine .word (.phrase head.call.of_tree ?_)
  -- whether the production has block parameters is whether there is a tree for them
  rw [← Option.isSome_map]
  refine .optional ?_ (.word h)
  intro tree hmem
  obtain ⟨lexeme, -, rfl⟩ := Option.map_eq_some_iff.1 hmem
  exact of_paramsTree lexeme

theorem BlockEnd.fills_trees (close : BlockEnd) :
    Fills ParseTree.Valid [.token .openEndBlock, .phrase (.atom .path), .token .closeCurly]
      close.trees :=
  .word (.phrase (of_atomTree .path close.path) (.word .nil))

mutual

/-- Each sort of statement is a valid tree of statements, by a rule of its own. -/
theorem Statement.of_tree (statement : Statement) : statement.tree.Of .statement := by
  cases statement with
  | text lexeme =>
      rw [Statement.tree]
      exact ParseTree.of_chosen _ (ParseTree.of_node (.word .nil))
  | htmlComment lexeme =>
      rw [Statement.tree]
      exact ParseTree.of_chosen _ (ParseTree.of_node (.word .nil))
  | curlyComment lexeme =>
      rw [Statement.tree]
      exact ParseTree.of_chosen _ (of_commentTree lexeme)
  | mustache curly =>
      rw [Statement.tree]
      exact ParseTree.of_chosen _ curly.of_tree
  | block head program inverse close =>
      rw [Statement.tree]
      refine ParseTree.of_chosen _ (ParseTree.of_node (head.fills_trees .openBlock ?_))
      refine .phrase (ParseTree.of_node (.only_many (of_statementTrees program))) ?_
      rw [← inverse.isSome_tree?]
      exact .optional (Inverse.of_tree? inverse) close.fills_trees
  | element tag tagEnd body endTag =>
      rw [Statement.tree]
      refine ParseTree.of_chosen _ (ParseTree.of_node (tag.fills_trees (.word ?_)))
      exact .phrase (ParseTree.of_node (.only_many (of_statementTrees body))) (.word .nil)
  | selfClosing tag tagEnd =>
      rw [Statement.tree]
      exact ParseTree.of_chosen _ (ParseTree.of_node (tag.fills_trees (.word .nil)))
  | void tag tagEnd =>
      rw [Statement.tree]
      exact ParseTree.of_chosen _ (ParseTree.of_node (tag.fills_trees (.word .nil)))

/-- An inverse that is there is a valid tree, by the rule for `else` alone or for `else` with a
head. -/
theorem Inverse.of_tree? (inverse : Inverse) : ∀ tree ∈ inverse.tree?, tree.Of .inverse := by
  cases inverse with
  | absent =>
      rw [Inverse.tree?]
      nofun
  | otherwise opening closing program =>
      rw [Inverse.tree?]
      rintro _ ⟨⟩
      exact ParseTree.of_node
        (.word (.word (.phrase (ParseTree.of_node (.only_many (of_statementTrees program))) .nil)))
  | chained head program inverse =>
      rw [Inverse.tree?]
      rintro _ ⟨⟩
      refine ParseTree.of_node (head.fills_trees .openElse ?_)
      refine .phrase (ParseTree.of_node (.only_many (of_statementTrees program))) ?_
      -- nothing comes after the inverse of a chained else
      rw [← inverse.isSome_tree?, ← List.append_nil (Item.optional _ _),
        ← List.append_nil inverse.tree?.toList]
      exact .optional (Inverse.of_tree? inverse) .nil

/-- The statements of a template are valid trees of statements. -/
theorem of_statementTrees (statements : List Statement) :
    ∀ tree ∈ statementTrees statements, tree.Of .statement := by
  cases statements with
  | nil =>
      rw [statementTrees]
      nofun
  | cons statement rest =>
      rw [statementTrees]
      exact List.forall_mem_cons.2 ⟨Statement.of_tree statement, of_statementTrees rest⟩

end

/-- The tree of a template is valid. -/
theorem valid_templateTree (statements : List Statement) : (templateTree statements).Of .start :=
  ParseTree.of_node (.only_many (of_statementTrees statements))

end TemplateUsage.Phrase
