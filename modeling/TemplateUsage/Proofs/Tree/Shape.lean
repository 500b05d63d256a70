import TemplateUsage.Proofs.Grammar.Balance
import TemplateUsage.Proofs.Parsing
import TemplateUsage.Proofs.Scan.Neighbours
import TemplateUsage.Proofs.Tree.Nesting
import TemplateUsage.Proofs.Words

set_option autoImplicit false

/-!
# The shape of a parsed tree

`Node.WellShaped` says of one node which nodes may stand in which place of it, and what
its names and texts are. It is put together from what the scanner gives, that tokens are
coherent, from the grammar, and from how nodes are built. Of two texts side by side one
is an escaped expression; an element whose tag is void is never left open. Main
statement: `parse_wellShaped`.
-/

namespace TemplateUsage

open Grammar Scan Template

/-! ## Shapes -/

/-- Sorts of node. -/
inductive NodeSort where
  | template
  | element
  | attribute
  | text
  | htmlComment
  | curlyComment
  | concat
  | mustache
  | subExpression
  | modifier
  | block
  | body
  | hash
  | pair
  | path
  | literal
  | unknown
  deriving DecidableEq, Repr

/-- The sort of a node. -/
def Node.sort : Node → NodeSort
  | .template _ _ => .template
  | .element _ _ _ _ _ _ _ => .element
  | .attribute _ _ _ => .attribute
  | .text _ _ => .text
  | .htmlComment _ _ => .htmlComment
  | .curlyComment _ _ => .curlyComment
  | .concat _ _ => .concat
  | .invocation _ (.mustache _) _ _ _ => .mustache
  | .invocation _ .subExpression _ _ _ => .subExpression
  | .invocation _ .modifier _ _ _ => .modifier
  | .block _ _ _ _ _ _ => .block
  | .body _ _ _ _ => .body
  | .hash _ _ => .hash
  | .pair _ _ _ => .pair
  | .path _ _ => .path
  | .literal _ _ => .literal
  | .unknown _ _ _ _ => .unknown

/-- Sorts of statement. -/
def statementSorts : List NodeSort :=
  [.text, .htmlComment, .curlyComment, .mustache, .block, .element]

/-- Sorts of value of an attribute. -/
def valueSorts : List NodeSort := [.text, .mustache, .concat]

/-- Sorts of expression. -/
def expressionSorts : List NodeSort := [.path, .literal, .subExpression]

/-- What a path is: a text that is not empty, without blanks and without what delimits
expressions. -/
def IsPath (text : String) : Prop :=
  text ≠ "" ∧ ∀ c ∈ text.toList, Text.isBlank c = false ∧
    c ∉ ['(', ')', '\x7b', '\x7d', '|', '=', '~', '"', '\'']

namespace Node

/-- Of two texts side by side one starts with two opening braces. -/
def Abuts (first next : Node) : Prop :=
  ∀ place chars nextPlace nextChars, first = .text place chars →
    next = .text nextPlace nextChars →
      ['\x7b', '\x7b'] <+: chars.toList ∨ ['\x7b', '\x7b'] <+: nextChars.toList

/-- What holds of the statements of a template, of an element and of a body that is not
chained. -/
structure Listed (nodes : List Node) : Prop where
  sort_mem : ∀ node ∈ nodes, node.sort ∈ statementSorts
  callee_sort : ∀ location callee params named program inverse,
    block location callee params named program inverse ∈ nodes → callee.sort = .path
  chars_ne : ∀ location chars, text location chars ∈ nodes → chars ≠ ""
  abuts : nodes.IsChain Abuts

theorem Listed.nil : Listed [] :=
  ⟨nofun, nofun, nofun, .nil⟩

/-- A node before a list keeps it one, if it may stand next to the first of them. -/
theorem Listed.cons {node : Node} {nodes : List Node} (hnode : Listed [node])
    (hnodes : Listed nodes) (hnext : ∀ next ∈ nodes.head?, node.Abuts next) :
    Listed (node :: nodes) := by
  refine ⟨?_, ?_, ?_, ?_⟩
  · exact List.forall_mem_cons.2 ⟨hnode.sort_mem node List.mem_cons_self, hnodes.sort_mem⟩
  · intro location callee params named program inverse hmem
    rcases List.mem_cons.1 hmem with hmem | hmem
    · exact hnode.callee_sort _ _ _ _ _ _ (List.mem_singleton.2 hmem)
    · exact hnodes.callee_sort _ _ _ _ _ _ hmem
  · intro location chars hmem
    rcases List.mem_cons.1 hmem with hmem | hmem
    · exact hnode.chars_ne _ _ (List.mem_singleton.2 hmem)
    · exact hnodes.chars_ne _ _ hmem
  · exact List.isChain_cons.2 ⟨hnext, hnodes.abuts⟩

theorem Listed.text {location : Option Location} {chars : String} (hchars : chars ≠ "") :
    Listed [.text location chars] := by
  refine ⟨List.forall_mem_singleton.2 (by decide : NodeSort.text ∈ statementSorts), ?_, ?_,
    .singleton _⟩
  · rintro location callee params named program inverse (_ | ⟨_, ⟨⟩⟩)
  · rintro location chars (_ | ⟨_, ⟨⟩⟩)
    exact hchars

theorem Listed.block {location : Option Location} {callee : Node} {params : List Node}
    {named program : Node} {inverse : Option Node} (hcallee : callee.sort = .path) :
    Listed [.block location callee params named program inverse] := by
  refine ⟨List.forall_mem_singleton.2 (by decide : NodeSort.block ∈ statementSorts), ?_, ?_,
    .singleton _⟩
  · rintro location callee params named program inverse (_ | ⟨_, ⟨⟩⟩)
    exact hcallee
  · rintro location chars (_ | ⟨_, ⟨⟩⟩)

/-- What holds of the parts of a quoted value with expressions. -/
structure Mixed (parts : List Node) : Prop where
  exists_mustache : ∃ part ∈ parts, part.sort = .mustache
  sort_mem : ∀ part ∈ parts, part.sort ∈ [.text, .mustache]
  chars_ne : ∀ location chars, text location chars ∈ parts → chars ≠ ""
  apart : parts.IsChain fun first next => ¬ (first.sort = .text ∧ next.sort = .text)

/-- What holds of a node of a parsed text. -/
def WellShaped : Node → Prop
  | .template _ members => Listed members
  | .element _ tag attributes modifiers names members selfClosing =>
      (∀ node ∈ attributes, node.sort = .attribute) ∧
        (∀ node ∈ modifiers, node.sort = .modifier) ∧
        (∀ name ∈ names, IsParamName name) ∧ Listed members ∧
        (selfClosing = true ∨ tag ∈ voidElements → members = [])
  | .attribute _ _ value => value.sort ∈ valueSorts
  | .concat _ parts => Mixed parts
  | .invocation _ _ callee params named =>
      callee.sort ∈ expressionSorts ∧ (∀ param ∈ params, param.sort ∈ expressionSorts) ∧
        named.sort = .hash
  | .block _ callee params named program inverse =>
      callee.sort ∈ expressionSorts ∧ (∀ param ∈ params, param.sort ∈ expressionSorts) ∧
        named.sort = .hash ∧
        (∃ location names statements, program = .body location names statements false) ∧
        ∀ node ∈ inverse, node.sort = .body
  | .body _ names statements chained =>
      (∀ name ∈ names, IsParamName name) ∧ (chained = false → Listed statements) ∧
        (chained = true → names = [] ∧ ∃ block, statements = [block] ∧ block.sort = .block)
  | .hash _ pairs => ∀ pair ∈ pairs, pair.sort = .pair
  | .pair _ _ value => value.sort ∈ expressionSorts
  | .path _ original => IsPath original
  | .text _ _ | .htmlComment _ _ | .curlyComment _ _ | .literal _ _ => True
  | .unknown _ _ _ _ => False

/-- The node is one of the sorts, and it and all it holds are well shaped. -/
def Shaped (sorts : List NodeSort) (node : Node) : Prop :=
  node.sort ∈ sorts ∧ node.Everywhere WellShaped

theorem Shaped.intro {sorts : List NodeSort} {node : Node} (hsort : node.sort ∈ sorts)
    (hnode : node.WellShaped)
    (hlists : ∀ siblings ∈ node.childLists, ∀ child ∈ siblings, child.Everywhere WellShaped) :
    node.Shaped sorts := by
  refine ⟨hsort, .intro hnode fun child hchild => ?_⟩
  obtain ⟨siblings, hsiblings, hmem⟩ := List.mem_flatten.1 hchild
  exact hlists siblings hsiblings child hmem

/-- A node that holds no nodes. -/
theorem Shaped.leaf {sorts : List NodeSort} {node : Node} (hsort : node.sort ∈ sorts)
    (hnode : node.WellShaped) (hlists : node.childLists = []) : node.Shaped sorts := by
  refine .intro hsort hnode ?_
  rw [hlists]
  exact List.forall_mem_nil _

theorem Shaped.mono {sorts more : List NodeSort} {node : Node} (h : node.Shaped sorts)
    (hsorts : sorts ⊆ more) : node.Shaped more :=
  ⟨hsorts h.1, h.2⟩

/-- A statement that is neither a text nor a block. -/
theorem Listed.of_shaped {sort : NodeSort} {node : Node} (h : node.Shaped [sort])
    (hsort : sort ∈ [NodeSort.htmlComment, .curlyComment, .mustache, .element]) :
    Listed [node] ∧ node.Everywhere WellShaped := by
  obtain rfl := List.mem_singleton.1 h.1
  have hsorts : [NodeSort.htmlComment, .curlyComment, .mustache, .element] ⊆ statementSorts := by
    decide
  refine ⟨⟨List.forall_mem_singleton.2 (hsorts hsort), ?_, ?_, .singleton _⟩, h.2⟩
  · intro location callee params named program inverse hmem
    rw [← List.mem_singleton.1 hmem] at hsort
    exact absurd hsort (by decide : NodeSort.block ∉ _)
  · intro location chars hmem
    rw [← List.mem_singleton.1 hmem] at hsort
    exact absurd hsort (by decide : NodeSort.text ∉ _)

/-- A block that a well shaped node holds is called by a path, unless it is the one that
an else goes on with. -/
theorem WellShaped.callee_sort {node : Node} (h : node.WellShaped) {location : Option Location}
    {callee : Node} {params : List Node} {named program : Node} {inverse : Option Node}
    (hmem : block location callee params named program inverse ∈ node.children) :
    callee.sort = .path ∨
      ∃ place, node = .body place [] [block location callee params named program inverse] true := by
  -- a block is a statement, so the list that holds it is one of statements
  obtain ⟨siblings, hsiblings, hblock⟩ := List.mem_flatten.1 hmem
  cases node with
  | template place members =>
      have hlisted : Listed members := h
      obtain rfl := List.mem_singleton.1 hsiblings
      exact .inl (hlisted.callee_sort _ _ _ _ _ _ hblock)
  | element place tag attributes modifiers names members selfClosing =>
      obtain ⟨hattributes, hmodifiers, -, hmembers, -⟩ := h
      simp only [childLists, List.mem_cons, List.not_mem_nil, or_false] at hsiblings
      rcases hsiblings with rfl | rfl | rfl
      · cases hattributes _ hblock
      · cases hmodifiers _ hblock
      · exact .inl (hmembers.callee_sort _ _ _ _ _ _ hblock)
  | «attribute» place name value =>
      obtain rfl := List.mem_singleton.1 hsiblings
      obtain rfl := List.mem_singleton.1 hblock
      exact absurd h (by decide : NodeSort.block ∉ valueSorts)
  | concat place parts =>
      obtain rfl := List.mem_singleton.1 hsiblings
      exact absurd (h.sort_mem _ hblock) (by decide : NodeSort.block ∉ [.text, .mustache])
  | invocation place form function arguments hash =>
      obtain ⟨hcallee, hparams, hhash⟩ := h
      simp only [childLists, List.mem_cons, List.not_mem_nil, or_false] at hsiblings
      rcases hsiblings with rfl | rfl | rfl
      · obtain rfl := List.mem_singleton.1 hblock
        exact absurd hcallee (by decide : NodeSort.block ∉ expressionSorts)
      · exact absurd (hparams _ hblock) (by decide : NodeSort.block ∉ expressionSorts)
      · obtain rfl := List.mem_singleton.1 hblock
        cases hhash
  | block place function arguments hash ownProgram ownInverse =>
      obtain ⟨hcallee, hparams, hhash, ⟨_, _, _, rfl⟩, hinverse⟩ := h
      simp only [childLists, List.mem_cons, List.not_mem_nil, or_false] at hsiblings
      rcases hsiblings with rfl | rfl | rfl | rfl | rfl
      · obtain rfl := List.mem_singleton.1 hblock
        exact absurd hcallee (by decide : NodeSort.block ∉ expressionSorts)
      · exact absurd (hparams _ hblock) (by decide : NodeSort.block ∉ expressionSorts)
      · obtain rfl := List.mem_singleton.1 hblock
        cases hhash
      · cases List.mem_singleton.1 hblock
      · cases hinverse _ (Option.mem_toList.1 hblock)
  | body place names statements chained =>
      obtain ⟨-, hlisted, hchained⟩ := h
      obtain rfl := List.mem_singleton.1 hsiblings
      cases chained with
      | false => exact .inl ((hlisted rfl).callee_sort _ _ _ _ _ _ hblock)
      | true =>
          obtain ⟨rfl, other, rfl, -⟩ := hchained rfl
          obtain rfl := List.mem_singleton.1 hblock
          exact .inr ⟨place, rfl⟩
  | hash place pairs =>
      obtain rfl := List.mem_singleton.1 hsiblings
      cases h _ hblock
  | pair place key value =>
      obtain rfl := List.mem_singleton.1 hsiblings
      obtain rfl := List.mem_singleton.1 hblock
      exact absurd h (by decide : NodeSort.block ∉ expressionSorts)
  | text place chars | htmlComment place value | curlyComment place value | path place original
  | literal place value => cases hsiblings
  | unknown params parts children members => cases h

end Node

namespace Phrase

open Node

variable {file : String}

/-! ## Calls -/

/-- The nodes of a call are expressions and a hash. -/
structure Invoked.Shaped (invoked : Invoked) : Prop where
  callee : invoked.callee.Shaped expressionSorts
  params : ∀ param ∈ invoked.params, param.Shaped expressionSorts
  hash : invoked.hash.Shaped [.hash]

theorem Invoked.Shaped.invocation {invoked : Invoked} (h : invoked.Shaped)
    {sorts : List NodeSort} {location : Option Location} {form : InvocationForm}
    (hsort : (Node.invocation location form invoked.callee invoked.params invoked.hash).sort ∈
      sorts) :
    (Node.invocation location form invoked.callee invoked.params invoked.hash).Shaped sorts := by
  refine .intro hsort ?_ ?_
  · exact ⟨h.callee.1, fun param hparam => (h.params param hparam).1,
      List.mem_singleton.1 h.hash.1⟩
  · rw [childLists]
    simp only [List.forall_mem_cons]
    exact ⟨⟨h.callee.2, List.forall_mem_nil _⟩, fun param hparam => (h.params param hparam).2,
      ⟨h.hash.2, List.forall_mem_nil _⟩, List.forall_mem_nil _⟩

theorem isPath_of_fit {lexeme : Lexeme} (h : Fit ⟨.path, lexeme⟩) : IsPath lexeme.value := by
  obtain ⟨hne, hchars⟩ := h
  refine ⟨hne, fun c hc => ?_⟩
  have hc := hchars c hc
  rw [isPathChar, Bool.not_eq_true', Bool.or_eq_false_iff] at hc
  exact ⟨hc.1, fun hmem => Bool.false_ne_true (hc.2.symm.trans (List.contains_iff_mem.2 hmem))⟩

/-- Only a path is not read as a literal. -/
theorem eq_path_of_read {sort : Atom} {text name : String}
    (h : Literal.read sort text = .error (.notLiteral name)) : sort = .path := by
  cases sort with
  | path => rfl
  | number =>
      rw [Literal.read] at h
      split at h <;> cases h
  | _ => cases h

mutual

/-- What an expression is built to is shaped as an expression, at every depth. -/
theorem Expression.shaped_build {expression : Expression} {node : Node}
    (hbuild : expression.build file = .ok node) (hcoherent : Coherent expression.tokens) :
    node.Shaped expressionSorts := by
  cases expression with
  | atom sort lexeme =>
      obtain ⟨value, -, rfl⟩ | ⟨name, hread, rfl⟩ := Expression.of_build_atom hbuild
      · exact .leaf (by decide : NodeSort.literal ∈ expressionSorts) trivial rfl
      · obtain rfl := eq_path_of_read hread
        rw [Expression.tokens] at hcoherent
        exact .leaf (by decide : NodeSort.path ∈ expressionSorts)
          (isPath_of_fit (hcoherent.fit _ List.mem_cons_self)) rfl
  | nested opening call closing =>
      obtain ⟨invoked, hinvoked, rfl⟩ := Expression.exists_of_build_nested hbuild
      rw [Expression.tokens] at hcoherent
      exact (Call.shaped_build hinvoked hcoherent.tail.append.1).invocation
        (by decide : NodeSort.subExpression ∈ expressionSorts)
termination_by structural expression

theorem Call.shaped_build {call : Call} {invoked : Invoked}
    (hbuild : call.build file = .ok invoked) (hcoherent : Coherent call.tokens) :
    invoked.Shaped := by
  cases call with
  | mk callee arguments pairs =>
      obtain ⟨calleeNode, params, pairNodes, hcallee, hparams, hpairs, rfl⟩ :=
        Call.exists_of_build hbuild
      rw [Call.tokens] at hcoherent
      obtain ⟨hfront, hback⟩ := hcoherent.append
      have hpairsShaped := shaped_buildPairs hpairs hback
      refine ⟨?_, ?_, ?_⟩
      · exact Expression.shaped_build hcallee hfront.append.1
      · exact shaped_buildExpressions hparams hfront.append.2
      · refine .intro List.mem_cons_self ?_ ?_
        · exact fun pair hpair => List.mem_singleton.1 (hpairsShaped pair hpair).1
        · exact List.forall_mem_singleton.2 fun pair hpair => (hpairsShaped pair hpair).2
termination_by structural call

theorem shaped_buildExpressions {arguments : List Expression} {nodes : List Node}
    (hbuild : buildExpressions file arguments = .ok nodes)
    (hcoherent : Coherent (argumentTokens arguments)) :
    ∀ node ∈ nodes, node.Shaped expressionSorts := by
  cases arguments with
  | nil =>
      rw [buildExpressions] at hbuild
      cases hbuild
      exact List.forall_mem_nil _
  | cons argument rest =>
      obtain ⟨node, others, hnode, hothers, rfl⟩ := exists_of_buildExpressions_cons hbuild
      rw [argumentTokens] at hcoherent
      refine List.forall_mem_cons.2 ⟨?_, ?_⟩
      · exact Expression.shaped_build hnode hcoherent.append.1
      · exact shaped_buildExpressions hothers hcoherent.append.2
termination_by structural arguments

theorem Pair.shaped_build {pair : Pair} {node : Node} (hbuild : pair.build file = .ok node)
    (hcoherent : Coherent pair.tokens) : node.Shaped [.pair] := by
  cases pair with
  | mk key value =>
      obtain ⟨valueNode, hvalue, rfl⟩ := Pair.exists_of_build hbuild
      rw [Pair.tokens] at hcoherent
      have hshaped := Expression.shaped_build hvalue hcoherent.tail
      refine .intro List.mem_cons_self hshaped.1 ?_
      exact List.forall_mem_singleton.2 (List.forall_mem_singleton.2 hshaped.2)
termination_by structural pair

theorem shaped_buildPairs {pairs : List Pair} {nodes : List Node}
    (hbuild : buildPairs file pairs = .ok nodes) (hcoherent : Coherent (pairTokens pairs)) :
    ∀ node ∈ nodes, node.Shaped [.pair] := by
  cases pairs with
  | nil =>
      rw [buildPairs] at hbuild
      cases hbuild
      exact List.forall_mem_nil _
  | cons pair rest =>
      obtain ⟨node, others, hnode, hothers, rfl⟩ := exists_of_buildPairs_cons hbuild
      rw [pairTokens] at hcoherent
      refine List.forall_mem_cons.2 ⟨?_, ?_⟩
      · exact Pair.shaped_build hnode hcoherent.append.1
      · exact shaped_buildPairs hothers hcoherent.append.2
termination_by structural pairs

end

theorem Mustache.shaped_build {mustache : Mustache} {node : Node}
    (hbuild : mustache.build file = .ok node) (hcoherent : Coherent mustache.tokens) :
    node.Shaped [.mustache] := by
  obtain ⟨invoked, hinvoked, rfl⟩ := Mustache.exists_of_build hbuild
  exact (Call.shaped_build hinvoked hcoherent.tail.append.1).invocation List.mem_cons_self

/-! ## Opening tags -/

/-- Phrases and what they are built to go together one by one. -/
theorem forall₂_of_mapM {α β : Type} {build : α → Except BuildError β} {phrases : List α}
    {results : List β} (h : phrases.mapM build = .ok results) :
    List.Forall₂ (fun phrase built => build phrase = .ok built) phrases results := by
  induction phrases generalizing results with
  | nil =>
      cases h
      exact .nil
  | cons phrase rest ih =>
      obtain ⟨built, others, hphrase, hothers, rfl⟩ := exists_of_mapM_cons h
      exact .cons hphrase (ih hothers)

/-- What holds of whatever is built from a coherent phrase holds of all that is built from
phrases one by one. -/
theorem forall_of_forall₂ {α β : Type} {build : α → Except BuildError β}
    {tokens : α → List Token} {property : β → Prop}
    (hbuilt : ∀ phrase built, build phrase = .ok built → Coherent (tokens phrase) →
      property built)
    {phrases : List α} {results : List β}
    (h : List.Forall₂ (fun phrase built => build phrase = .ok built) phrases results)
    (hcoherent : Coherent (phrases.flatMap tokens)) : ∀ built ∈ results, property built := by
  induction h with
  | nil => exact List.forall_mem_nil _
  | cons hphrase hrest ih =>
      rw [List.flatMap_cons] at hcoherent
      obtain ⟨hfirst, hothers⟩ := hcoherent.append
      exact List.forall_mem_cons.2 ⟨hbuilt _ _ hphrase hfirst, ih hothers⟩

theorem QuotedPart.shaped_build {part : QuotedPart} {node : Node}
    (hbuild : part.build file = .ok node) (hcoherent : Coherent part.tokens) :
    node.Shaped [.text, .mustache] ∧
      ∀ location chars, node = .text location chars → chars ≠ "" := by
  cases part with
  | text lexeme =>
      cases hbuild
      refine ⟨.leaf List.mem_cons_self trivial rfl, ?_⟩
      rintro location chars ⟨⟩
      exact hcoherent.fit _ List.mem_cons_self
  | mustache curly =>
      have hshaped := curly.shaped_build hbuild hcoherent
      refine ⟨hshaped.mono (by decide), ?_⟩
      rintro location chars rfl
      exact absurd hshaped.1 (by decide : NodeSort.text ∉ [NodeSort.mustache])

theorem QuotedPart.eq_text_of_build {part : QuotedPart} {node : Node}
    (hbuild : part.build file = .ok node) (hcoherent : Coherent part.tokens)
    (hsort : node.sort = .text) : ∃ lexeme, part = .text lexeme := by
  cases part with
  | text lexeme => exact ⟨lexeme, rfl⟩
  | mustache curly =>
      have hmustache := (curly.shaped_build hbuild hcoherent).1
      rw [hsort] at hmustache
      exact absurd hmustache (by decide)

/-- The scanner takes text between quotes as far as it goes. -/
theorem apart_of_forall₂ {parts : List QuotedPart} {nodes : List Node}
    (h : List.Forall₂ (fun part node => QuotedPart.build file part = .ok node) parts nodes)
    (hcoherent : Coherent (parts.flatMap QuotedPart.tokens)) :
    nodes.IsChain fun first next => ¬ (first.sort = .text ∧ next.sort = .text) := by
  induction h with
  | nil => exact .nil
  | cons hfirst hrest ih =>
      rw [List.flatMap_cons] at hcoherent
      cases hrest with
      | nil => exact .singleton _
      | cons hnext _ =>
          refine .cons_cons ?_ (ih hcoherent.append.2)
          rintro ⟨hfirstSort, hnextSort⟩
          have hback := hcoherent.append.2
          rw [List.flatMap_cons] at hback
          obtain ⟨lexeme, rfl⟩ :=
            QuotedPart.eq_text_of_build hfirst hcoherent.append.1 hfirstSort
          obtain ⟨nextLexeme, rfl⟩ :=
            QuotedPart.eq_text_of_build hnext hback.append.1 hnextSort
          exact (List.isChain_cons_cons.1 hcoherent.joins).1.1 ⟨rfl, rfl⟩

/-- Parts that are not all text hold an expression. -/
theorem exists_mustache_of_forall₂ {parts : List QuotedPart} {nodes : List Node}
    (h : List.Forall₂ (fun part node => QuotedPart.build file part = .ok node) parts nodes)
    (hcoherent : Coherent (parts.flatMap QuotedPart.tokens))
    (htexts : parts.mapM QuotedPart.text? = none) : ∃ node ∈ nodes, node.sort = .mustache := by
  induction h with
  | nil => cases htexts
  | @cons part node parts nodes hfirst hrest ih =>
      rw [List.flatMap_cons] at hcoherent
      obtain ⟨hcoherentFirst, hcoherentRest⟩ := hcoherent.append
      cases part with
      | text lexeme =>
          rw [List.mapM_cons] at htexts
          have htexts : parts.mapM QuotedPart.text? = none := by
            cases hothers : parts.mapM QuotedPart.text? with
            | none => rfl
            | some texts =>
                rw [hothers] at htexts
                cases htexts
          obtain ⟨other, hmem, hsort⟩ := ih hcoherentRest htexts
          exact ⟨other, List.mem_cons_of_mem _ hmem, hsort⟩
      | mustache curly =>
          have hshaped := curly.shaped_build hfirst hcoherentFirst
          exact ⟨node, List.mem_cons_self, List.mem_singleton.1 hshaped.1⟩

/-- What a value is built to is a text, a mustache or both mixed. -/
theorem Value.shaped_build {value : Value} {node : Node} (hbuild : value.build file = .ok node)
    (hcoherent : Coherent value.tokens) : node.Shaped valueSorts := by
  cases value with
  | text lexeme =>
      cases hbuild
      exact .leaf List.mem_cons_self trivial rfl
  | mustache curly =>
      exact (curly.shaped_build hbuild hcoherent).mono (by decide)
  | quoted opening parts closing =>
      obtain ⟨nodes, hnodes, ⟨texts, -, rfl⟩ | ⟨htexts, rfl⟩⟩ :=
        Value.exists_of_build_quoted hbuild
      · exact .leaf List.mem_cons_self trivial rfl
      · have hparts := forall₂_of_mapM hnodes
        have hcoherent := hcoherent.tail.append.1
        have hshaped := forall_of_forall₂ (fun _ _ => QuotedPart.shaped_build) hparts hcoherent
        refine .intro (by decide : NodeSort.concat ∈ valueSorts) ⟨?_, ?_, ?_, ?_⟩ ?_
        · exact exists_mustache_of_forall₂ hparts hcoherent htexts
        · exact fun node hnode => (hshaped node hnode).1.1
        · exact fun location chars hnode => (hshaped _ hnode).2 location chars rfl
        · exact apart_of_forall₂ hparts hcoherent
        · exact List.forall_mem_singleton.2 fun node hnode => (hshaped node hnode).1.2

/-- What a part of a tag adds to its element is well shaped. -/
def BuiltPart.Shaped : BuiltPart → Prop
  | .attribute node => node.Shaped [.attribute]
  | .modifier node => node.Shaped [.modifier]
  | .params names => ∀ name ∈ names, IsParamName name
  | .nothing => True

theorem TagPart.shaped_build {part : TagPart} {built : BuiltPart}
    (hbuild : part.build file = .ok built) (hcoherent : Coherent part.tokens) :
    built.Shaped := by
  cases part with
  | flag name =>
      cases hbuild
      have hvalue : (Node.text none "").Shaped valueSorts :=
        .leaf List.mem_cons_self trivial rfl
      exact .intro List.mem_cons_self hvalue.1
        (List.forall_mem_singleton.2 (List.forall_mem_singleton.2 hvalue.2))
  | «attribute» name equals value =>
      obtain ⟨node, hnode, rfl⟩ := TagPart.exists_of_build_attribute hbuild
      have hvalue := value.shaped_build hnode hcoherent.tail.tail
      exact .intro List.mem_cons_self hvalue.1
        (List.forall_mem_singleton.2 (List.forall_mem_singleton.2 hvalue.2))
  | modifier opening call closing =>
      obtain ⟨invoked, hinvoked, rfl⟩ := TagPart.exists_of_build_modifier hbuild
      exact (Call.shaped_build hinvoked hcoherent.tail.append.1).invocation List.mem_cons_self
  | params lexeme =>
      cases hbuild
      intro name hname
      exact isParamName_of_mem (hcoherent.fit _ List.mem_cons_self) hname
  | comment lexeme =>
      cases hbuild
      trivial

theorem Tag.shaped_parts {tag : Tag} {parts : List BuiltPart}
    (hbuild : tag.parts.mapM (TagPart.build file) = .ok parts) (hcoherent : Coherent tag.tokens) :
    ∀ part ∈ parts, part.Shaped :=
  forall_of_forall₂ (fun _ _ => TagPart.shaped_build) (forall₂_of_mapM hbuild) hcoherent.tail

theorem foldl_latestTag_of_inner {tokens : List Token} (h : ∀ token ∈ tokens, token.kind.Inner)
    (latest : Option String) : tokens.foldl latestTag latest = latest := by
  induction tokens with
  | nil => rfl
  | cons token rest ih =>
      obtain ⟨hfirst, hrest⟩ := List.forall_mem_cons.1 h
      rw [List.foldl_cons, latestTag, if_neg hfirst.ne_startTag, ih hrest]

/-- The tag of an element that is left open is not void. -/
theorem Tag.notMem_voidElements {tag : Tag} {tagEnd : Lexeme} {rest : List Token}
    (hcoherent : Coherent (tag.tokens ++ ⟨.tagEnd, tagEnd⟩ :: rest)) :
    tag.name.value ∉ voidElements := by
  obtain ⟨latest, hleaves⟩ := hcoherent.leaves
  have hlatest : tag.tokens.foldl latestTag latest = some tag.name.value := by
    rw [Tag.tokens, List.foldl_cons]
    apply foldl_latestTag_of_inner
    rw [List.forall_mem_flatMap]
    exact fun part _ => part.inner_of_mem
  have hend := (leavesNoVoid_append.1 hleaves).2.1 rfl
  rw [hlatest] at hend
  exact hend _ rfl

/-! ## Statements -/

theorem shaped_elementNode {parts : List BuiltPart} (hparts : ∀ part ∈ parts, part.Shaped)
    {members : List Node} (hlisted : Listed members)
    (hmembers : ∀ node ∈ members, node.Everywhere WellShaped) {tag : String} {selfClosing : Bool}
    (hempty : selfClosing = true ∨ tag ∈ voidElements → members = []) (location : Location) :
    (elementNode location tag parts members selfClosing).Shaped [.element] := by
  have hattribute : ∀ node ∈ parts.filterMap BuiltPart.attribute?, node.Shaped [.attribute] := by
    intro node hnode
    obtain ⟨part, hpart, hsome⟩ := List.mem_filterMap.1 hnode
    have hshaped := hparts part hpart
    cases part <;> cases hsome
    exact hshaped
  have hmodifier : ∀ node ∈ parts.filterMap BuiltPart.modifier?, node.Shaped [.modifier] := by
    intro node hnode
    obtain ⟨part, hpart, hsome⟩ := List.mem_filterMap.1 hnode
    have hshaped := hparts part hpart
    cases part <;> cases hsome
    exact hshaped
  refine .intro List.mem_cons_self ⟨?_, ?_, ?_, hlisted, hempty⟩ ?_
  · exact fun node hnode => List.mem_singleton.1 (hattribute node hnode).1
  · exact fun node hnode => List.mem_singleton.1 (hmodifier node hnode).1
  · intro name hname
    obtain ⟨part, hpart, hmem⟩ := List.mem_flatMap.1 hname
    have hshaped := hparts part hpart
    cases part with
    | params names => exact hshaped name hmem
    | _ => cases hmem
  · simp only [elementNode, childLists, List.forall_mem_cons]
    exact ⟨fun node hnode => (hattribute node hnode).2, fun node hnode => (hmodifier node hnode).2,
      hmembers, List.forall_mem_nil _⟩

theorem shaped_body {names : List String} (hnames : ∀ name ∈ names, IsParamName name)
    {statements : List Node} (hlisted : Listed statements)
    (hstatements : ∀ node ∈ statements, node.Everywhere WellShaped)
    (location : Option Location) :
    (Node.body location names statements false).Shaped [.body] := by
  refine .intro List.mem_cons_self ⟨hnames, fun _ => hlisted, nofun⟩ ?_
  exact List.forall_mem_singleton.2 hstatements

theorem Head.isParamName_of_mem {kind : Kind} {head : Head}
    (hcoherent : Coherent (head.tokens kind)) : ∀ name ∈ head.names, IsParamName name := by
  obtain ⟨opening, call, params, closing⟩ := head
  cases params with
  | none => exact List.forall_mem_nil _
  | some lexeme =>
      intro name hname
      have hparams := hcoherent.append.1.append.2
      exact Phrase.isParamName_of_mem (hparams.fit _ List.mem_cons_self) hname

/-- A block with the names of its head. -/
theorem Head.shaped_block {kind : Kind} {head : Head} (hcoherent : Coherent (head.tokens kind))
    {invoked : Invoked} (hinvoked : head.call.build file = .ok invoked)
    {statements : List Node} (hlisted : Listed statements)
    (hstatements : ∀ node ∈ statements, node.Everywhere WellShaped)
    {inverse : Option Node} (hinverse : ∀ node ∈ inverse, node.Shaped [.body])
    (location inner : Option Location) :
    (Node.block location invoked.callee invoked.params invoked.hash
      (.body inner head.names statements false) inverse).Shaped [.block] := by
  have hshaped := Call.shaped_build hinvoked hcoherent.append.1.append.1.tail
  have hbody := shaped_body (Head.isParamName_of_mem hcoherent) hlisted hstatements inner
  refine .intro List.mem_cons_self ⟨hshaped.callee.1, ?_, ?_, ⟨_, _, _, rfl⟩, ?_⟩ ?_
  · exact fun param hparam => (hshaped.params param hparam).1
  · exact List.mem_singleton.1 hshaped.hash.1
  · exact fun node hnode => List.mem_singleton.1 (hinverse node hnode).1
  · simp only [childLists, List.forall_mem_cons]
    refine ⟨⟨hshaped.callee.2, List.forall_mem_nil _⟩,
      fun param hparam => (hshaped.params param hparam).2,
      ⟨hshaped.hash.2, List.forall_mem_nil _⟩, ⟨hbody.2, List.forall_mem_nil _⟩, ?_,
      List.forall_mem_nil _⟩
    exact fun node hnode => (hinverse node (Option.mem_toList.1 hnode)).2

/-- A block is closed by a path only if its callee is one. -/
theorem sort_callee_of_closedBy {call : Call} {invoked : Invoked} {path : Lexeme}
    (hbuild : call.build file = .ok invoked) (hclosed : call.callee.closedBy path = true) :
    invoked.callee.sort = .path := by
  obtain ⟨callee, arguments, pairs⟩ := call
  obtain ⟨calleeNode, params, pairNodes, hcallee, -, -, rfl⟩ := Call.exists_of_build hbuild
  cases callee with
  | atom sort lexeme =>
      cases sort with
      | path =>
          cases hcallee
          rfl
      | _ => cases hclosed
  | nested opening call closing => cases hclosed

theorem Statement.eq_text_of_build {statement : Statement} {node : Node}
    (hbuild : statement.build file = .ok node) (hsort : node.sort = .text) :
    ∃ lexeme, statement = .text lexeme ∧
      node = .text (some (lexeme.span.inFile file)) lexeme.value := by
  cases statement with
  | text lexeme =>
      rw [Statement.build] at hbuild
      cases hbuild
      exact ⟨lexeme, rfl, rfl⟩
  | htmlComment lexeme | curlyComment lexeme =>
      rw [Statement.build] at hbuild
      cases hbuild
      cases hsort
  | mustache curly =>
      rw [Statement.build] at hbuild
      obtain ⟨invoked, -, rfl⟩ := Mustache.exists_of_build hbuild
      cases hsort
  | block head program inverse close =>
      obtain ⟨invoked, statements, inverseNode, -, -, -, -, rfl⟩ :=
        Statement.exists_of_build_block hbuild
      cases hsort
  | element tag tagEnd body endTag =>
      obtain ⟨parts, members, -, -, -, rfl⟩ := Statement.exists_of_build_element hbuild
      cases hsort
  | selfClosing tag tagEnd | void tag tagEnd =>
      rw [Statement.build] at hbuild
      obtain ⟨parts, -, hbuild⟩ := exists_of_bind_eq_ok hbuild
      cases hbuild
      cases hsort

/-- Texts side by side are those of two text tokens side by side. -/
theorem abuts_of_build {statement : Statement} {rest : List Statement} {node : Node}
    {nodes : List Node} (hnode : statement.build file = .ok node)
    (hnodes : buildStatements file rest = .ok nodes)
    (hjoins : (statement.tokens ++ statementTokens rest).IsChain Joins) :
    ∀ next ∈ nodes.head?, node.Abuts next := by
  rintro next hnext place chars nextPlace nextChars rfl rfl
  obtain ⟨lexeme, rfl, ⟨⟩⟩ := Statement.eq_text_of_build hnode rfl
  cases rest with
  | nil =>
      rw [buildStatements] at hnodes
      cases hnodes
      cases hnext
  | cons second more =>
      obtain ⟨secondNode, others, hsecond, -, rfl⟩ := exists_of_buildStatements_cons hnodes
      cases hnext
      obtain ⟨nextLexeme, rfl, ⟨⟩⟩ := Statement.eq_text_of_build hsecond rfl
      rw [Statement.tokens, statementTokens, Statement.tokens] at hjoins
      exact (List.isChain_cons_cons.1 hjoins).1.2 rfl rfl

mutual

/-- What a statement is built to may stand in a list, and is well shaped at every depth. -/
theorem Statement.shaped_build {statement : Statement} {node : Node}
    (hbuild : statement.build file = .ok node) (hcoherent : Coherent statement.tokens) :
    Listed [node] ∧ node.Everywhere WellShaped := by
  cases statement with
  | text lexeme =>
      rw [Statement.build] at hbuild
      cases hbuild
      rw [Statement.tokens] at hcoherent
      have hleaf : (Node.text (some (lexeme.span.inFile file)) lexeme.value).Shaped [.text] :=
        .leaf List.mem_cons_self trivial rfl
      refine ⟨.text (hcoherent.fit _ List.mem_cons_self), hleaf.2⟩
  | htmlComment lexeme =>
      rw [Statement.build] at hbuild
      cases hbuild
      exact Listed.of_shaped (.leaf (List.mem_singleton_self _) trivial rfl)
        (by decide : NodeSort.htmlComment ∈ _)
  | curlyComment lexeme =>
      rw [Statement.build] at hbuild
      cases hbuild
      exact Listed.of_shaped (.leaf (List.mem_singleton_self _) trivial rfl)
        (by decide : NodeSort.curlyComment ∈ _)
  | mustache curly =>
      rw [Statement.build] at hbuild
      rw [Statement.tokens] at hcoherent
      exact Listed.of_shaped (curly.shaped_build hbuild hcoherent) (by decide)
  | block head program inverse close =>
      obtain ⟨invoked, statements, inverseNode, hinvoked, hstatements, hinverse, hclosed, rfl⟩ :=
        Statement.exists_of_build_block hbuild
      rw [Statement.tokens] at hcoherent
      obtain ⟨hopened, -⟩ := hcoherent.append
      obtain ⟨hfront, hinverseTokens⟩ := hopened.append
      obtain ⟨hlisted, hmembers⟩ := listed_buildStatements hstatements hfront.append.2
      have hshaped := Head.shaped_block hfront.append.1 hinvoked hlisted hmembers
        (Inverse.shaped_build hinverse hinverseTokens)
        (some ((head.opening.span.cover close.closing.span).inFile file))
        (listLocation? file Statement.span program)
      exact ⟨.block (sort_callee_of_closedBy hinvoked hclosed), hshaped.2⟩
  | element tag tagEnd body endTag =>
      obtain ⟨parts, members, hparts, hmembers, -, rfl⟩ := Statement.exists_of_build_element hbuild
      rw [Statement.tokens, List.append_assoc] at hcoherent
      obtain ⟨htag, hrest⟩ := hcoherent.append
      obtain ⟨hlisted, hnodes⟩ := listed_buildStatements hmembers hrest.tail.append.1
      refine Listed.of_shaped
        (shaped_elementNode (Tag.shaped_parts hparts htag) hlisted hnodes ?_ _) (by decide)
      rintro (⟨⟨⟩⟩ | hvoid)
      exact absurd hvoid (Tag.notMem_voidElements hcoherent)
  | selfClosing tag tagEnd | void tag tagEnd =>
      rw [Statement.build] at hbuild
      obtain ⟨parts, hparts, hbuild⟩ := exists_of_bind_eq_ok hbuild
      cases hbuild
      rw [Statement.tokens] at hcoherent
      exact Listed.of_shaped (shaped_elementNode (Tag.shaped_parts hparts hcoherent.append.1) .nil
        (List.forall_mem_nil _) (fun _ => rfl) _) (by decide)
termination_by structural statement

theorem Inverse.shaped_build {inverse : Inverse} {node? : Option Node}
    (hbuild : inverse.build file = .ok node?) (hcoherent : Coherent inverse.tokens) :
    ∀ node ∈ node?, node.Shaped [.body] := by
  cases inverse with
  | absent =>
      rw [Inverse.build] at hbuild
      cases hbuild
      nofun
  | otherwise opening closing program =>
      obtain ⟨statements, hstatements, rfl⟩ := Inverse.exists_of_build_otherwise hbuild
      rw [Inverse.tokens] at hcoherent
      obtain ⟨hlisted, hnodes⟩ := listed_buildStatements hstatements hcoherent.tail.tail
      rintro node ⟨⟩
      exact shaped_body (List.forall_mem_nil _) hlisted hnodes _
  | chained head program inverse =>
      obtain ⟨invoked, statements, inverseNode, hinvoked, hstatements, hinverse, rfl⟩ :=
        Inverse.exists_of_build_chained hbuild
      rw [Inverse.tokens] at hcoherent
      obtain ⟨hfront, hinverseTokens⟩ := hcoherent.append
      obtain ⟨hlisted, hnodes⟩ := listed_buildStatements hstatements hfront.append.2
      have hshaped := Head.shaped_block hfront.append.1 hinvoked hlisted hnodes
        (Inverse.shaped_build hinverse hinverseTokens)
        (some (((Inverse.chained head program inverse).spanFrom head.opening).inFile file))
        (listLocation? file Statement.span program)
      rintro node ⟨⟩
      refine .intro List.mem_cons_self ⟨List.forall_mem_nil _, nofun, ?_⟩ ?_
      · exact fun _ => ⟨rfl, _, rfl, List.mem_singleton.1 hshaped.1⟩
      · exact List.forall_mem_singleton.2 (List.forall_mem_singleton.2 hshaped.2)
termination_by structural inverse

/-- The nodes of statements may stand side by side, as the tokens of a scan do. -/
theorem listed_buildStatements {statements : List Statement} {nodes : List Node}
    (hbuild : buildStatements file statements = .ok nodes)
    (hcoherent : Coherent (statementTokens statements)) :
    Listed nodes ∧ ∀ node ∈ nodes, node.Everywhere WellShaped := by
  cases statements with
  | nil =>
      rw [buildStatements] at hbuild
      cases hbuild
      exact ⟨.nil, List.forall_mem_nil _⟩
  | cons statement rest =>
      obtain ⟨node, others, hnode, hothers, rfl⟩ := exists_of_buildStatements_cons hbuild
      rw [statementTokens] at hcoherent
      obtain ⟨hfirst, hrest⟩ := hcoherent.append
      obtain ⟨hlisted, hnodes⟩ := listed_buildStatements hothers hrest
      obtain ⟨hsingle, heverywhere⟩ := Statement.shaped_build hnode hfirst
      refine ⟨.cons hsingle hlisted ?_, List.forall_mem_cons.2 ⟨heverywhere, hnodes⟩⟩
      exact abuts_of_build hnode hothers hcoherent.joins
termination_by structural statements

end

end Phrase

namespace Template

open Node Phrase

/-- Every node of a parsed text is well shaped, and every block but the one that an else
goes on with is called by a path. -/
theorem parse_wellShaped {file source : String} {root : Node}
    (h : parse file source = .ok root) :
    root.sort = .template ∧ root.Everywhere WellShaped ∧
      root.Everywhere fun node => ∀ location callee params named program inverse,
        block location callee params named program inverse ∈ node.children →
          callee.sort = .path ∨ ∃ place,
            node = .body place [] [block location callee params named program inverse] true := by
  obtain ⟨-, statements, htokens, hbuild⟩ := parse_eq_ok_iff.1 h
  obtain ⟨nodes, hnodes, hbuild⟩ := exists_of_bind_eq_ok hbuild
  cases hbuild
  have hcoherent := coherent_ofText source
  rw [← htokens] at hcoherent
  obtain ⟨hlisted, hmembers⟩ := listed_buildStatements hnodes hcoherent
  have hshaped : (Node.template (listLocation? file Statement.span statements) nodes).Shaped
      [.template] :=
    .intro List.mem_cons_self hlisted (List.forall_mem_singleton.2 hmembers)
  refine ⟨rfl, hshaped.2, ?_⟩
  intro node hwithin location callee params named program inverse hmem
  exact (hshaped.2 node hwithin).callee_sort hmem

/-- An element with a void one, and a block that goes on in its else. -/
def chainedBlock : String :=
  "<p class='a\x7b\x7bb\x7d\x7d'><br>c\\\x7b\x7bd\x7d\x7d" ++
    "\x7b\x7b#if e as |f g|\x7d\x7d\x7b\x7belse if h\x7d\x7d\x7b\x7b/if\x7d\x7d</p>"

/-- The element is parsed, so all its nodes are well shaped. -/
theorem parse_wellShaped_chained :
    ∃ root, parse "page" chainedBlock = .ok root ∧ root.sort = .template ∧
      root.Everywhere WellShaped ∧
      root.Everywhere fun node => ∀ location callee params named program inverse,
        block location callee params named program inverse ∈ node.children →
          callee.sort = .path ∨ ∃ place,
            node = .body place [] [block location callee params named program inverse] true := by
  have hparsed : (parse "page" chainedBlock).isOk = true := by decide +kernel
  obtain ⟨root, hroot⟩ := exists_of_isOk hparsed
  exact ⟨root, hroot, parse_wellShaped hroot⟩

end Template

end TemplateUsage
