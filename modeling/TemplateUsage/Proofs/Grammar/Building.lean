import TemplateUsage.Proofs.Grammar.Extent
import TemplateUsage.Proofs.Grammar.PhraseTree
import TemplateUsage.Proofs.Tree.Inversion

set_option autoImplicit false

/-!
# Building a node is the meaning of a derivation

For every phrase, the node that is built from it is the meaning of its derivation
tree, and building stops where a method stops, for the same reason. Main statement:
`meanings_templateTree`.
-/

namespace TemplateUsage

open Grammar

/-- What stops a method when it stops building. -/
def BuildError.stop (file : String) : BuildError → Stop
  | .rejected rejection => .raised rejection.fault (some (rejection.span.inFile file))
  | .numeral error => .numeral error

theorem Span.inFile_injective {file : String} {span other : Span}
    (h : span.inFile file = other.inFile file) : span = other := by
  obtain ⟨⟨offset, line, column⟩, ⟨stop, stopLine, stopColumn⟩⟩ := span
  obtain ⟨⟨offset', line', column'⟩, ⟨stop', stopLine', stopColumn'⟩⟩ := other
  cases h
  rfl

theorem BuildError.stop_injective {file : String} {first second : BuildError}
    (h : first.stop file = second.stop file) : first = second := by
  cases first with
  | rejected rejection =>
      cases second with
      | rejected other =>
          obtain ⟨fault, span⟩ := rejection
          obtain ⟨otherFault, otherSpan⟩ := other
          obtain ⟨rfl, hplace⟩ := Stop.raised.inj h
          have hspan : span = otherSpan := Span.inFile_injective (Option.some.inj hplace)
          rw [hspan]
      | numeral error => cases h
  | numeral error =>
      cases second with
      | rejected other => cases h
      | numeral other => rw [Stop.numeral.inj h]

namespace Grammar

/-- What is built, as meanings. -/
def asMeanings {α : Type} (file : String) (mean : α → List Meaning) :
    Except BuildError α → Except Stop (List Meaning)
  | .ok built => .ok (mean built)
  | .error error => .error (error.stop file)

/-! ## Trees and forests

A method goes on from the meanings of the parts. The lemmas below take these one
after the other, in step with what is built. -/

section Parts

variable {file : String} {α β : Type} {mean : α → List Meaning} {result : β → List Meaning}
  {method : List Meaning → Except Stop (List Meaning)}

/-- A method is told where its phrase stands. -/
theorem ParseTree.meanings_node {production : Production} {children : List ParseTree} {span : Span}
    (h : tokensSpan? (ParseTree.node production children).tokens = some span) :
    (ParseTree.node production children).meanings file = (forestMeanings file children >>=
      fun parts => production.method file (some (span.inFile file)) (production.slots parts)) := by
  rw [ParseTree.tokens_node] at h
  rw [ParseTree.meanings, tokensLocation?, h]
  rfl

/-- What stops building stops the method, and otherwise the two go on together. -/
theorem asMeanings_bind {built : Except BuildError α} {next : α → Except BuildError β}
    (h : ∀ value, built = .ok value →
      method (mean value) = asMeanings file result (next value)) :
    (asMeanings file mean built >>= method) = asMeanings file result (built >>= next) := by
  cases built with
  | error error => rfl
  | ok value => exact h value rfl

theorem parts_nil : (forestMeanings file [] >>= method) = method [] := by
  rw [forestMeanings]
  rfl

/-- The next part is a phrase whose meaning is known. -/
theorem parts_known {tree : ParseTree} {first : List Meaning}
    (htree : tree.meanings file = .ok first) (rest : List ParseTree) :
    (forestMeanings file (tree :: rest) >>= method) =
      (forestMeanings file rest >>= fun others => method (first ++ others)) := by
  rw [forestMeanings, htree, bind_assoc]
  cases forestMeanings file rest <;> rfl

/-- The next part is a token. -/
theorem parts_word (kind : Kind) (lexeme : Lexeme) (rest : List ParseTree) :
    (forestMeanings file (.word kind lexeme :: rest) >>= method) =
      (forestMeanings file rest >>= fun others =>
        method ((if isPunctuation kind then [] else [.token ⟨kind, lexeme⟩]) ++ others)) := by
  refine parts_known ?_ rest
  rw [ParseTree.word, ParseTree.meanings]

/-- The meaning of a phrase of a single token. -/
theorem ParseTree.meanings_node_word (production : Production) (kind : Kind) (lexeme : Lexeme) :
    (ParseTree.node production [.word kind lexeme]).meanings file =
      production.method file (some (lexeme.span.inFile file))
        (production.slots (if isPunctuation kind then [] else [.token ⟨kind, lexeme⟩])) := by
  have hspan : tokensSpan? (ParseTree.node production [.word kind lexeme]).tokens =
      some lexeme.span := by
    simp [forestTokens, tokensSpan?, Phrase.listSpan?, Span.cover]
  rw [ParseTree.meanings_node hspan, parts_word, parts_nil, List.append_nil]

/-- The next part is a phrase. -/
theorem parts_phrase {tree : ParseTree} {rest : List ParseTree} {built : Except BuildError α}
    {next : α → Except BuildError β} (htree : tree.meanings file = asMeanings file mean built)
    (h : ∀ value, built = .ok value →
      (forestMeanings file rest >>= fun others => method (mean value ++ others)) =
        asMeanings file result (next value)) :
    (forestMeanings file (tree :: rest) >>= method) =
      asMeanings file result (built >>= next) := by
  rw [forestMeanings, htree, bind_assoc]
  refine asMeanings_bind fun value hvalue => ?_
  rw [← h value hvalue]
  cases forestMeanings file rest <;> rfl

theorem forestMeanings_append (front back : List ParseTree) :
    forestMeanings file (front ++ back) = (forestMeanings file front >>= fun first =>
      forestMeanings file back >>= fun others => .ok (first ++ others)) := by
  induction front with
  | nil =>
      rw [List.nil_append, parts_nil]
      cases forestMeanings file back <;> rfl
  | cons tree rest ih =>
      rw [List.cons_append, forestMeanings, forestMeanings, ih]
      cases tree.meanings file with
      | error stop => rfl
      | ok first =>
          cases forestMeanings file rest with
          | error stop => rfl
          | ok middle =>
              cases forestMeanings file back with
              | error stop => rfl
              | ok last => exact congrArg Except.ok (List.append_assoc first middle last).symm

/-- The next parts are phrases of one sort. -/
theorem parts_phrases {front back : List ParseTree} {built : Except BuildError α}
    {next : α → Except BuildError β}
    (hfront : forestMeanings file front = asMeanings file mean built)
    (h : ∀ value, built = .ok value →
      (forestMeanings file back >>= fun others => method (mean value ++ others)) =
        asMeanings file result (next value)) :
    (forestMeanings file (front ++ back) >>= method) =
      asMeanings file result (built >>= next) := by
  rw [forestMeanings_append, hfront, bind_assoc]
  refine asMeanings_bind fun value hvalue => ?_
  rw [← h value hvalue]
  cases forestMeanings file back <;> rfl

theorem forestMeanings_singleton {tree : ParseTree} {built : Except BuildError α}
    (h : tree.meanings file = asMeanings file mean built) :
    forestMeanings file [tree] = asMeanings file mean built := by
  rw [forestMeanings, forestMeanings, h]
  cases built with
  | error error => rfl
  | ok value => exact congrArg Except.ok (List.append_nil (mean value))

/-- A phrase that is taken as another keeps its meaning. -/
theorem ParseTree.meanings_chosen (whole part : Nonterminal) (mem : part ∈ whole.choices)
    (tree : ParseTree) :
    (ParseTree.chosen whole part mem tree).meanings file = tree.meanings file := by
  rw [ParseTree.chosen, ParseTree.meanings, forestMeanings, forestMeanings]
  cases tree.meanings file with
  | error stop => rfl
  | ok parts => exact congrArg Except.ok (List.append_nil parts)

@[simp] theorem nodesOf_map_node (nodes : List Node) :
    nodesOf (nodes.map Meaning.node) = .ok nodes := by
  induction nodes with
  | nil => rfl
  | cons node rest ih =>
      rw [List.map_cons, nodesOf, ih]
      rfl

end Parts

end Grammar

namespace Phrase

variable {file : String}

/-! ## Expressions -/

theorem isPair_build_expression {expression : Expression} {node : Node}
    (h : expression.build file = .ok node) : isPair node = false := by
  cases expression with
  | atom sort lexeme =>
      obtain ⟨value, -, rfl⟩ | ⟨name, -, rfl⟩ := Expression.of_build_atom h
      · rfl
      · rfl
  | nested opening call closing =>
      obtain ⟨invoked, -, rfl⟩ := Expression.exists_of_build_nested h
      rfl

theorem isPair_buildExpressions {expressions : List Expression} {nodes : List Node}
    (h : buildExpressions file expressions = .ok nodes) :
    ∀ node ∈ nodes, isPair node = false := by
  induction expressions generalizing nodes with
  | nil =>
      rw [buildExpressions] at h
      cases h
      nofun
  | cons expression rest ih =>
      obtain ⟨first, others, hfirst, hothers, rfl⟩ := exists_of_buildExpressions_cons h
      exact List.forall_mem_cons.2 ⟨isPair_build_expression hfirst, ih hothers⟩

/-- The nodes of pairs are pairs, and they stand where the pairs do. -/
theorem buildPairs_eq_ok {pairs : List Pair} {nodes : List Node}
    (h : buildPairs file pairs = .ok nodes) :
    (∀ node ∈ nodes, isPair node = true) ∧
      nodes.map Node.location? = pairs.map fun pair => some (pair.span.inFile file) := by
  induction pairs generalizing nodes with
  | nil =>
      rw [buildPairs] at h
      cases h
      exact ⟨nofun, rfl⟩
  | cons pair rest ih =>
      obtain ⟨first, others, hfirst, hothers, rfl⟩ := exists_of_buildPairs_cons h
      obtain ⟨key, value⟩ := pair
      obtain ⟨node, -, rfl⟩ := Pair.exists_of_build hfirst
      obtain ⟨hpairs, hlocations⟩ := ih hothers
      refine ⟨List.forall_mem_cons.2 ⟨rfl, hpairs⟩, ?_⟩
      rw [List.map_cons, List.map_cons, hlocations]
      rfl

/-- A hash stands from its first pair to its last. -/
theorem hashLocation_buildPairs {pairs : List Pair} {nodes : List Node}
    (h : buildPairs file pairs = .ok nodes) :
    hashLocation nodes = listLocation? file Pair.span pairs := by
  -- only the first and the last pair count, and each node stands where its pair does
  have hlocations := (buildPairs_eq_ok h).2
  have hfirst : nodes.head?.bind Node.location? =
      pairs.head?.map fun pair => pair.span.inFile file := by
    have hhead := congrArg List.head? hlocations
    rw [List.head?_map, List.head?_map] at hhead
    cases hnodes : nodes.head? <;> cases hpairs : pairs.head? <;> simp_all
  have hlast : nodes.getLast?.bind Node.location? =
      pairs.getLast?.map fun pair => pair.span.inFile file := by
    have hend := congrArg List.getLast? hlocations
    rw [List.getLast?_map, List.getLast?_map] at hend
    cases hnodes : nodes.getLast? <;> cases hpairs : pairs.getLast? <;> simp_all
  rw [hashLocation, hfirst, hlast, listLocation?, listSpan?]
  cases pairs.head? <;> cases pairs.getLast? <;> rfl

/-- The arguments of a call are told from its pairs by what they are. -/
theorem callMethod_map_node (callee : Node) {params named : List Node}
    (hparams : ∀ node ∈ params, isPair node = false)
    (hnamed : ∀ node ∈ named, isPair node = true) :
    callMethod (.node callee :: (params.map Meaning.node ++ named.map Meaning.node)) =
      .ok [.invoked ⟨callee, params, .hash (hashLocation named) named⟩] := by
  have hpairs : (params ++ named).filter isPair = named := by
    rw [List.filter_append, List.filter_eq_nil_iff.2, List.filter_eq_self.2 hnamed,
      List.nil_append]
    intro node hmem
    rw [hparams node hmem]
    exact Bool.false_ne_true
  have hothers : (params ++ named).filter (fun node => !isPair node) = params := by
    rw [List.filter_append, List.filter_eq_self.2, List.filter_eq_nil_iff.2, List.append_nil]
    · intro node hmem
      rw [hnamed node hmem]
      exact Bool.false_ne_true
    · intro node hmem
      rw [hparams node hmem]
      rfl
  rw [callMethod, ← List.map_append, nodesOf_map_node]
  show Except.ok [Meaning.invoked ⟨callee, (params ++ named).filter _,
    .hash (hashLocation ((params ++ named).filter isPair)) _⟩] = _
  rw [hpairs, hothers]

/-- An atom has the meaning its token has. -/
theorem meanings_atomTree (sort : Atom) (lexeme : Lexeme) :
    (atomTree sort lexeme).meanings file =
      asMeanings file (fun node => [.node node]) (Expression.build file (.atom sort lexeme)) := by
  rw [atomTree, ParseTree.meanings_node_word, Expression.build]
  cases sort with
  | path | string | boolean | null | undefined => rfl
  | number =>
      -- the only atom that can fail to be read, with the same error on both sides
      simp only [Literal.read]
      cases h : Numeral.read lexeme.value <;>
        simp [Production.method, Production.slots, atomMethod, Literal.read, Atom.kind,
          isPunctuation, asMeanings, BuildError.stop, h]

mutual

theorem Expression.meanings_tree (expression : Expression) :
    expression.tree.meanings file =
      asMeanings file (fun node => [.node node]) (expression.build file) := by
  cases expression with
  | atom sort lexeme =>
      rw [Expression.tree, ParseTree.meanings_chosen]
      exact meanings_atomTree sort lexeme
  | nested opening call closing =>
      have hspan := Expression.tokensSpan?_tokens (.nested opening call closing)
      rw [← Expression.tokens_tree, Expression.tree, ParseTree.tokens_chosen] at hspan
      rw [Expression.tree, ParseTree.meanings_chosen, ParseTree.meanings_node hspan,
        Expression.build, parts_word]
      refine parts_phrase (Call.meanings_tree call) fun invoked _ => ?_
      rw [parts_word, parts_nil]
      rfl

theorem Call.meanings_tree (call : Call) :
    call.tree.meanings file =
      asMeanings file (fun invoked => [.invoked invoked]) (call.build file) := by
  cases call with
  | mk callee arguments pairs =>
      rw [Call.tree, ParseTree.meanings, Call.build]
      refine parts_phrase (Expression.meanings_tree callee) fun calleeNode _ => ?_
      refine parts_phrases (forestMeanings_argumentTrees arguments) fun params hparams => ?_
      rw [← List.append_nil (pairTrees pairs)]
      refine parts_phrases (forestMeanings_pairTrees pairs) fun named hnamed => ?_
      rw [parts_nil, List.append_nil, List.append_nil]
      show callMethod (.node calleeNode :: (params.map Meaning.node ++ named.map Meaning.node)) = _
      rw [callMethod_map_node calleeNode (isPair_buildExpressions hparams)
        (buildPairs_eq_ok hnamed).1, hashLocation_buildPairs hnamed]
      rfl

theorem forestMeanings_argumentTrees (arguments : List Expression) :
    forestMeanings file (argumentTrees arguments) =
      asMeanings file (List.map Meaning.node) (buildExpressions file arguments) := by
  cases arguments with
  | nil =>
      rw [argumentTrees, forestMeanings, buildExpressions]
      rfl
  | cons argument rest =>
      rw [argumentTrees, forestMeanings, Expression.meanings_tree argument,
        forestMeanings_argumentTrees rest, buildExpressions]
      refine asMeanings_bind fun node _ => ?_
      exact asMeanings_bind fun nodes _ => rfl

theorem Pair.meanings_tree (pair : Pair) :
    pair.tree.meanings file = asMeanings file (fun node => [.node node]) (pair.build file) := by
  cases pair with
  | mk key value =>
      have hspan := Pair.tokensSpan?_tokens (.mk key value)
      rw [← Pair.tokens_tree, Pair.tree] at hspan
      rw [Pair.tree, ParseTree.meanings_node hspan, Pair.build, parts_word]
      refine parts_phrase (Expression.meanings_tree value) fun node _ => ?_
      rw [parts_nil]
      rfl

theorem forestMeanings_pairTrees (pairs : List Pair) :
    forestMeanings file (pairTrees pairs) =
      asMeanings file (List.map Meaning.node) (buildPairs file pairs) := by
  cases pairs with
  | nil =>
      rw [pairTrees, forestMeanings, buildPairs]
      rfl
  | cons pair rest =>
      rw [pairTrees, forestMeanings, Pair.meanings_tree pair, forestMeanings_pairTrees rest,
        buildPairs]
      refine asMeanings_bind fun node _ => ?_
      exact asMeanings_bind fun nodes _ => rfl

end

theorem Mustache.meanings_tree (mustache : Mustache) :
    mustache.tree.meanings file =
      asMeanings file (fun node => [.node node]) (mustache.build file) := by
  have hspan := mustache.tokensSpan?_tokens
  rw [← Mustache.tokens_tree, Mustache.tree] at hspan
  rw [Mustache.tree, ParseTree.meanings_node hspan, Mustache.build, parts_word]
  refine parts_phrase mustache.call.meanings_tree fun invoked _ => ?_
  rw [parts_word, parts_nil]
  obtain ⟨trusting, opening, call, closing⟩ := mustache
  cases trusting <;> rfl

/-! ## Opening tags -/

/-- The meanings of phrases of one sort, each of which has one. -/
theorem forestMeanings_map {α β : Type} {tree : α → ParseTree} {build : α → Except BuildError β}
    {mean : α → β → Meaning}
    (h : ∀ phrase, (tree phrase).meanings file =
      asMeanings file (fun built => [mean phrase built]) (build phrase)) (phrases : List α) :
    forestMeanings file (phrases.map tree) =
      asMeanings file (fun built => List.zipWith mean phrases built) (phrases.mapM build) := by
  induction phrases with
  | nil =>
      rw [List.map_nil, forestMeanings, List.mapM_nil]
      rfl
  | cons phrase rest ih =>
      rw [List.map_cons, forestMeanings, h phrase, ih, List.mapM_cons]
      refine asMeanings_bind fun first _ => ?_
      exact asMeanings_bind fun others _ => rfl

theorem QuotedPart.meanings_tree (part : QuotedPart) :
    part.tree.meanings file =
      asMeanings file (fun node => [.node node]) (part.build file) := by
  cases part with
  | text lexeme =>
      rw [QuotedPart.tree, ParseTree.meanings_chosen, ParseTree.meanings_node_word]
      rfl
  | mustache curly =>
      rw [QuotedPart.tree, ParseTree.meanings_chosen]
      exact curly.meanings_tree

/-- The parts of a quoted value are nodes, and its texts are those of its parts. -/
theorem mapM_build_quotedParts {parts : List QuotedPart} {nodes : List Node}
    (h : parts.mapM (QuotedPart.build file) = .ok nodes) :
    List.zipWith (fun _ node => Meaning.node node) parts nodes = nodes.map Meaning.node ∧
      nodes.mapM textChars? = parts.mapM QuotedPart.text? := by
  induction parts generalizing nodes with
  | nil =>
      cases h
      exact ⟨rfl, rfl⟩
  | cons part rest ih =>
      obtain ⟨node, others, hnode, hothers, rfl⟩ := exists_of_mapM_cons h
      obtain ⟨hnodes, htexts⟩ := ih hothers
      have htext : textChars? node = part.text? := by
        cases part with
        | text lexeme =>
            cases hnode
            rfl
        | mustache curly =>
            obtain ⟨invoked, -, rfl⟩ := Mustache.exists_of_build hnode
            rfl
      rw [List.zipWith_cons_cons, List.map_cons, hnodes, List.mapM_cons, List.mapM_cons, htext,
        htexts]
      exact ⟨rfl, rfl⟩

theorem Value.meanings_tree (value : Value) :
    value.tree.meanings file = asMeanings file (fun node => [.node node]) (value.build file) := by
  cases value with
  | text lexeme =>
      rw [Value.tree, ParseTree.meanings_node_word]
      rfl
  | mustache curly =>
      rw [Value.tree, ParseTree.meanings_chosen]
      exact curly.meanings_tree
  | quoted opening parts closing =>
      have hspan := Value.tokensSpan?_tokens (.quoted opening parts closing)
      rw [← Value.tokens_tree, Value.tree] at hspan
      rw [Value.tree, ParseTree.meanings_node hspan, Value.build, parts_word]
      refine parts_phrases (forestMeanings_map QuotedPart.meanings_tree parts)
        fun nodes hnodes => ?_
      obtain ⟨hzip, htexts⟩ := mapM_build_quotedParts hnodes
      rw [parts_word, parts_nil, hzip]
      show nodesMethod _ (nodes.map Meaning.node ++ []) = _
      rw [List.append_nil, nodesMethod, nodesOf_map_node]
      show Except.ok [Meaning.node (quotedNode _ nodes)] = _
      -- the nodes are all texts exactly when the parts are
      rw [quotedNode, htexts]
      cases parts.mapM QuotedPart.text? <;> rfl

/-- What a part of an opening tag means, beside what it adds to the element. -/
def TagPart.meaning (file : String) (part : TagPart) : BuiltPart → Meaning
  | .attribute node | .modifier node => .node node
  | .params names => .names names
  | .nothing =>
      match part with
      | .comment lexeme => .node (.curlyComment (some (lexeme.span.inFile file)) lexeme.value)
      | _ => .absent

theorem TagPart.meanings_tree (part : TagPart) :
    part.tree.meanings file =
      asMeanings file (fun built => [part.meaning file built]) (part.build file) := by
  cases part with
  | flag name =>
      rw [TagPart.tree, ParseTree.meanings_chosen, ParseTree.meanings_node_word]
      rfl
  | «attribute» name equals value =>
      have hspan : tokensSpan? (TagPart.attribute name equals value).tokens =
          some (name.span.cover value.span) :=
        tokensSpan?_eq (StartsAt.cons _ _) (StopsAt.cons _ (StopsAt.cons _ value.stopsAt_tokens))
      rw [← TagPart.tokens_tree, TagPart.tree, ParseTree.tokens_chosen] at hspan
      rw [TagPart.tree, ParseTree.meanings_chosen, ParseTree.meanings_node hspan, TagPart.build,
        parts_word, parts_word]
      refine parts_phrase value.meanings_tree fun node _ => ?_
      rw [parts_nil]
      rfl
  | modifier opening call closing =>
      have hspan : tokensSpan? (TagPart.modifier opening call closing).tokens =
          some (opening.span.cover closing.span) :=
        tokensSpan?_eq (StartsAt.cons _ _) (StopsAt.append _ (StopsAt.singleton _))
      rw [← TagPart.tokens_tree, TagPart.tree, ParseTree.tokens_chosen] at hspan
      rw [TagPart.tree, ParseTree.meanings_chosen, ParseTree.meanings_node hspan, TagPart.build,
        parts_word]
      refine parts_phrase call.meanings_tree fun invoked _ => ?_
      rw [parts_word, parts_nil]
      rfl
  | params lexeme =>
      rw [TagPart.tree, ParseTree.meanings_chosen, paramsTree, ParseTree.meanings_node_word]
      rfl
  | comment lexeme =>
      rw [TagPart.tree, ParseTree.meanings_chosen, commentTree, ParseTree.meanings_node_word]
      rfl

/-- A part of an opening tag means to its element what is built of it. -/
theorem TagPart.meaning_of_build {part : TagPart} {built : BuiltPart}
    (h : part.build file = .ok built) :
    (part.meaning file built).attribute? = built.attribute? ∧
      (part.meaning file built).modifier? = built.modifier? ∧
      (part.meaning file built).declared = built.names := by
  cases part with
  | flag name | params lexeme | comment lexeme =>
      cases h
      exact ⟨rfl, rfl, rfl⟩
  | «attribute» name equals value =>
      obtain ⟨node, -, rfl⟩ := TagPart.exists_of_build_attribute h
      exact ⟨rfl, rfl, rfl⟩
  | modifier opening call closing =>
      obtain ⟨invoked, -, rfl⟩ := TagPart.exists_of_build_modifier h
      exact ⟨rfl, rfl, rfl⟩

/-- The parts of an opening tag, as they are built. -/
def builtParts (parts : List BuiltPart) : Meaning :=
  .parts (parts.filterMap BuiltPart.attribute?) (parts.filterMap BuiltPart.modifier?)
    (parts.flatMap BuiltPart.names)

theorem tagPartsMethod_meaning {parts : List TagPart} {built : List BuiltPart}
    (h : parts.mapM (TagPart.build file) = .ok built) :
    tagPartsMethod (List.zipWith (TagPart.meaning file) parts built) = .ok [builtParts built] := by
  rw [tagPartsMethod, builtParts]
  induction parts generalizing built with
  | nil =>
      cases h
      rfl
  | cons part rest ih =>
      obtain ⟨first, others, hfirst, hothers, rfl⟩ := exists_of_mapM_cons h
      obtain ⟨hattribute, hmodifier, hnames⟩ := TagPart.meaning_of_build hfirst
      have hrest := ih hothers
      simp only [Except.ok.injEq, List.cons.injEq, Meaning.parts.injEq, and_true] at hrest
      obtain ⟨hattributes, hmodifiers, hdeclared⟩ := hrest
      simp only [List.zipWith_cons_cons, List.filterMap_cons, List.flatMap_cons, hattribute,
        hmodifier, hnames, hattributes, hmodifiers, hdeclared]

/-- The next parts are an opening tag up to its end. -/
theorem parts_tag {β : Type} {result : β → List Meaning}
    {method : List Meaning → Except Stop (List Meaning)} (tag : Tag) {rest : List ParseTree}
    {next : List BuiltPart → Except BuildError β}
    (h : ∀ built, (forestMeanings file rest >>= fun others =>
        method (.token ⟨.startTag, tag.name⟩ :: builtParts built :: others)) =
          asMeanings file result (next built)) :
    (forestMeanings file (tag.trees rest) >>= method) =
      asMeanings file result (tag.parts.mapM (TagPart.build file) >>= next) := by
  have hparts : (ParseTree.node .tagParts (tag.parts.map TagPart.tree)).meanings file =
      asMeanings file (fun built => [builtParts built])
        (tag.parts.mapM (TagPart.build file)) := by
    rw [ParseTree.meanings, forestMeanings_map TagPart.meanings_tree]
    cases hbuilt : tag.parts.mapM (TagPart.build file) with
    | error error => rfl
    | ok built => exact tagPartsMethod_meaning hbuilt
  rw [Tag.trees, parts_word]
  exact parts_phrase hparts fun built _ => h built

/-! ## Statements -/

/-- What the callee of a block is called is what its expression is called. -/
theorem Expression.title_of_build {expression : Expression} {node : Node}
    (h : expression.build file = .ok node) (path : Lexeme) :
    calleeTitle node = expression.title ∧
      (isPath node && expression.title == path.value) = expression.closedBy path := by
  cases expression with
  | atom sort lexeme =>
      cases sort with
      | path | string | boolean | null | undefined =>
          rw [Expression.build] at h
          cases h
          exact ⟨rfl, rfl⟩
      | number =>
          rw [Expression.build] at h
          simp only [Literal.read] at h
          cases hread : Numeral.read lexeme.value with
          | error error =>
              rw [hread] at h
              cases h
          | ok value =>
              rw [hread] at h
              cases h
              exact ⟨rfl, rfl⟩
  | nested opening call closing =>
      obtain ⟨invoked, -, rfl⟩ := Expression.exists_of_build_nested h
      exact ⟨rfl, rfl⟩

theorem Call.build_callee {call : Call} {invoked : Invoked} (h : call.build file = .ok invoked) :
    call.callee.build file = .ok invoked.callee := by
  cases call with
  | mk callee arguments pairs =>
      obtain ⟨node, params, named, hnode, -, -, rfl⟩ := Call.exists_of_build h
      exact hnode

/-- The meaning of the block parameters of a head, if it has any. -/
def Head.paramMeanings (head : Head) : List Meaning :=
  (head.params.map fun lexeme => Meaning.names (paramNames lexeme)).toList

/-- The next parts are a head. -/
theorem parts_head {β : Type} {result : β → List Meaning}
    {method : List Meaning → Except Stop (List Meaning)} {kind : Kind}
    (hkind : isPunctuation kind = true) (head : Head) {rest : List ParseTree}
    {next : Invoked → Except BuildError β}
    (h : ∀ invoked, head.call.build file = .ok invoked →
      (forestMeanings file rest >>= fun others =>
        method (.invoked invoked :: (head.paramMeanings ++ others))) =
          asMeanings file result (next invoked)) :
    (forestMeanings file (head.trees kind rest) >>= method) =
      asMeanings file result (head.call.build file >>= next) := by
  have hparams (lexeme : Lexeme) :
      (paramsTree lexeme).meanings file = .ok [.names (paramNames lexeme)] := by
    rw [paramsTree, ParseTree.meanings_node_word]
    rfl
  rw [Head.trees, parts_word, if_pos hkind]
  refine parts_phrase head.call.meanings_tree fun invoked hinvoked => ?_
  rw [← h invoked hinvoked]
  obtain ⟨opening, call, params, closing⟩ := head
  -- block parameters that are not there have no meaning yet: their slot is filled later
  cases params with
  | none =>
      show (forestMeanings file (.word .closeCurly closing :: rest) >>= _) = _
      rw [parts_word]
      rfl
  | some names =>
      show (forestMeanings file (paramsTree names :: .word .closeCurly closing :: rest) >>= _) = _
      rw [parts_known (hparams names), parts_word]
      rfl

theorem Inverse.isSome_of_build {inverse : Inverse} {node : Option Node}
    (h : inverse.build file = .ok node) : node.isSome = inverse.isPresent := by
  cases inverse with
  | absent =>
      rw [Inverse.build] at h
      cases h
      rfl
  | otherwise opening closing program =>
      obtain ⟨statements, -, rfl⟩ := Inverse.exists_of_build_otherwise h
      rfl
  | chained head program ending =>
      obtain ⟨invoked, statements, last, -, -, -, rfl⟩ := Inverse.exists_of_build_chained h
      rfl

/-- The last parts are the closing of a block. -/
theorem parts_blockEnd {method : List Meaning → Except Stop (List Meaning)} (close : BlockEnd) :
    (forestMeanings file close.trees >>= method) =
      method [.node (.path (some (close.path.span.inFile file)) close.path.value)] := by
  have hpath : (atomTree .path close.path).meanings file =
      .ok [.node (.path (some (close.path.span.inFile file)) close.path.value)] := by
    rw [meanings_atomTree, Expression.build]
    rfl
  rw [BlockEnd.trees, parts_word, parts_known hpath, parts_word, parts_nil]
  rfl

/-- The meaning of an optional node. -/
def optionalNode (node : Option Node) : List Meaning := (node.map Meaning.node).toList

/-- The parts of a section with those that are not there in their places. -/
theorem fillSlot_section (invoked : Invoked) (head : Head) (program : Node)
    {inverse : Option Node} {present : Bool} (hpresent : inverse.isSome = present)
    (rest : List Meaning) :
    ∃ params ending : Meaning, params.names? = some head.names ∧ ending.node? = some inverse ∧
      fillSlot 3 present (fillSlot 1 head.params.isSome
        (.invoked invoked :: (head.paramMeanings ++
          ([.node program] ++ (optionalNode inverse ++ rest))))) =
        .invoked invoked :: params :: .node program :: ending :: rest := by
  subst hpresent
  obtain ⟨opening, call, params, closing⟩ := head
  cases params with
  | none =>
      cases inverse with
      | none => exact ⟨.absent, .absent, rfl, rfl, rfl⟩
      | some node => exact ⟨.absent, .node node, rfl, rfl, rfl⟩
  | some names =>
      cases inverse with
      | none => exact ⟨.names (paramNames names), .absent, rfl, rfl, rfl⟩
      | some node => exact ⟨.names (paramNames names), .node node, rfl, rfl, rfl⟩

/-- A phrase made of statements means what is built of them. -/
theorem meanings_statements {production : Production} {statements : List Statement}
    {make : Option Location → List Node → Meaning}
    (hmethod : ∀ location parts, production.method file location (production.slots parts) =
      nodesMethod (make location) parts)
    (hforest : forestMeanings file (statementTrees statements) =
      asMeanings file (List.map Meaning.node) (buildStatements file statements)) :
    (ParseTree.node production (statementTrees statements)).meanings file =
      asMeanings file (fun nodes => [make (listLocation? file Statement.span statements) nodes])
        (buildStatements file statements) := by
  have hlocation : tokensLocation? file (forestTokens (statementTrees statements)) =
      listLocation? file Statement.span statements := by
    rw [forestTokens_statementTrees, tokensLocation?, tokensSpan?_statementTokens, listLocation?]
  rw [ParseTree.meanings, hforest, hlocation]
  cases buildStatements file statements with
  | error error => rfl
  | ok nodes =>
      show production.method file _ (production.slots (nodes.map Meaning.node)) = _
      rw [hmethod, nodesMethod, nodesOf_map_node]
      rfl

mutual

theorem Statement.meanings_tree (statement : Statement) :
    statement.tree.meanings file =
      asMeanings file (fun node => [.node node]) (statement.build file) := by
  have hspan := statement.tokensSpan?_tokens
  rw [← Statement.tokens_tree] at hspan
  cases statement with
  | text lexeme =>
      rw [Statement.tree, ParseTree.meanings_chosen, ParseTree.meanings_node_word, Statement.build]
      rfl
  | htmlComment lexeme =>
      rw [Statement.tree, ParseTree.meanings_chosen, ParseTree.meanings_node_word, Statement.build]
      rfl
  | curlyComment lexeme =>
      rw [Statement.tree, ParseTree.meanings_chosen, commentTree, ParseTree.meanings_node_word,
        Statement.build]
      rfl
  | mustache curly =>
      rw [Statement.tree, ParseTree.meanings_chosen, Statement.build]
      exact curly.meanings_tree
  | block head program inverse close =>
      have hprogram : (ParseTree.node .program (statementTrees program)).meanings file = _ :=
        meanings_statements (fun _ _ => rfl) (forestMeanings_statementTrees program)
      rw [Statement.tree, ParseTree.tokens_chosen] at hspan
      rw [Statement.tree, ParseTree.meanings_chosen, ParseTree.meanings_node hspan,
        Statement.build]
      refine parts_head rfl head fun invoked hinvoked => ?_
      refine parts_phrase hprogram fun statements _ => ?_
      refine parts_phrases (Inverse.meanings_tree? inverse) fun node hnode => ?_
      rw [parts_blockEnd]
      obtain ⟨htitle, hclosed⟩ :=
        Expression.title_of_build (Call.build_callee hinvoked) close.path
      obtain ⟨params, ending, hparams, hending, hslots⟩ := fillSlot_section invoked head
        (.body (listLocation? file Statement.span program) [] statements false)
        (Inverse.isSome_of_build hnode)
        [.node (.path (some (close.path.span.inFile file)) close.path.value)]
      show blockMethod _ (fillSlot 3 inverse.isPresent (fillSlot 1 head.params.isSome
        (.invoked invoked :: (head.paramMeanings ++ ([.node _] ++ (optionalNode node ++
          [.node (.path (some (close.path.span.inFile file)) close.path.value)])))))) = _
      rw [hslots]
      -- both sides fail together on a closing path that is not the callee's
      simp only [blockMethod, hparams, hending, hclosed, htitle]
      cases head.call.callee.closedBy close.path <;> rfl
  | element tag tagEnd body endTag =>
      have hbody : (ParseTree.node .elementBody (statementTrees body)).meanings file = _ :=
        meanings_statements (fun _ _ => rfl) (forestMeanings_statementTrees body)
      rw [Statement.tree, ParseTree.tokens_chosen] at hspan
      rw [Statement.tree, ParseTree.meanings_chosen, ParseTree.meanings_node hspan,
        Statement.build]
      refine parts_tag tag fun parts => ?_
      rw [parts_word]
      refine parts_phrase hbody fun children _ => ?_
      rw [parts_word, parts_nil]
      show elementMethod file _ [.token ⟨.startTag, tag.name⟩, builtParts parts, .nodes children,
        .token ⟨.endTag, endTag⟩] = _
      -- both sides fail together on an end tag with another name
      simp only [elementMethod, builtParts]
      cases tag.name.value == endTag.value <;> rfl
  | selfClosing tag tagEnd =>
      rw [Statement.tree, ParseTree.tokens_chosen] at hspan
      rw [Statement.tree, ParseTree.meanings_chosen, ParseTree.meanings_node hspan,
        Statement.build]
      refine parts_tag tag fun parts => ?_
      rw [parts_word, parts_nil]
      rfl
  | void tag tagEnd =>
      rw [Statement.tree, ParseTree.tokens_chosen] at hspan
      rw [Statement.tree, ParseTree.meanings_chosen, ParseTree.meanings_node hspan,
        Statement.build]
      refine parts_tag tag fun parts => ?_
      rw [parts_word, parts_nil]
      rfl

theorem Inverse.meanings_tree? (inverse : Inverse) :
    forestMeanings file inverse.tree?.toList =
      asMeanings file optionalNode (inverse.build file) := by
  cases inverse with
  | absent =>
      rw [Inverse.tree?, Inverse.build, Option.toList_none, forestMeanings]
      rfl
  | otherwise opening closing program =>
      have hprogram : (ParseTree.node .program (statementTrees program)).meanings file = _ :=
        meanings_statements (fun _ _ => rfl) (forestMeanings_statementTrees program)
      have hstart : StartsAt (Inverse.otherwise opening closing program).tokens
          opening.span.start := by
        rw [Inverse.tokens]
        exact StartsAt.cons ⟨.openElse, opening⟩ _
      have hspan := Inverse.tokensSpan?_tokens hstart rfl
      rw [← Inverse.tokens_tree?, Inverse.tree?, Option.toList_some,
        forestTokens_singleton] at hspan
      rw [Inverse.tree?, Option.toList_some]
      refine forestMeanings_singleton ?_
      rw [ParseTree.meanings_node hspan, Inverse.build, parts_word, parts_word]
      refine parts_phrase hprogram fun statements _ => ?_
      rw [parts_nil]
      rfl
  | chained head program ending =>
      have hprogram : (ParseTree.node .program (statementTrees program)).meanings file = _ :=
        meanings_statements (fun _ _ => rfl) (forestMeanings_statementTrees program)
      have hstart : StartsAt (Inverse.chained head program ending).tokens
          head.opening.span.start := by
        rw [Inverse.tokens]
        exact StartsAt.append (StartsAt.append (head.startsAt_tokens .openElse) _) _
      have hspan := Inverse.tokensSpan?_tokens hstart rfl
      rw [← Inverse.tokens_tree?, Inverse.tree?, Option.toList_some,
        forestTokens_singleton] at hspan
      rw [Inverse.tree?, Option.toList_some]
      refine forestMeanings_singleton ?_
      rw [ParseTree.meanings_node hspan, Inverse.build]
      refine parts_head rfl head fun invoked _ => ?_
      refine parts_phrase hprogram fun statements _ => ?_
      rw [← List.append_nil ending.tree?.toList]
      refine parts_phrases (Inverse.meanings_tree? ending) fun node hnode => ?_
      rw [parts_nil]
      -- a part that is not written is `absent` in its slot
      obtain ⟨params, last, hparams, hlast, hslots⟩ := fillSlot_section invoked head
        (.body (listLocation? file Statement.span program) [] statements false)
        (Inverse.isSome_of_build hnode) []
      show chainedMethod _ (fillSlot 3 ending.isPresent (fillSlot 1 head.params.isSome
        (.invoked invoked :: (head.paramMeanings ++
          ([.node _] ++ (optionalNode node ++ [])))))) = _
      rw [hslots]
      simp only [chainedMethod, hparams, hlast]
      rfl

theorem forestMeanings_statementTrees (statements : List Statement) :
    forestMeanings file (statementTrees statements) =
      asMeanings file (List.map Meaning.node) (buildStatements file statements) := by
  cases statements with
  | nil =>
      rw [statementTrees, forestMeanings, buildStatements]
      rfl
  | cons statement rest =>
      rw [statementTrees, forestMeanings, Statement.meanings_tree statement,
        forestMeanings_statementTrees rest, buildStatements]
      refine asMeanings_bind fun node _ => ?_
      exact asMeanings_bind fun nodes _ => rfl

end

/-- The node built of a template is the meaning of its derivation. -/
theorem meanings_templateTree (statements : List Statement) :
    (templateTree statements).meanings file =
      asMeanings file (fun node => [.node node]) (buildTemplate file statements) := by
  rw [templateTree, meanings_statements (fun _ _ => rfl) (forestMeanings_statementTrees statements),
    buildTemplate]
  cases buildStatements file statements <;> rfl

end Phrase

end TemplateUsage
