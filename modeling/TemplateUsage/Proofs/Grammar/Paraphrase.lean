import TemplateUsage.Proofs.Grammar.Meaning
import TemplateUsage.Proofs.Tree.Revision

set_option autoImplicit false

/-!
# Derivations in other words

The tokens of a derivation may be put in another place or under another file name, its
punctuation may be written in another way, and its comments may say something else (`Edit`).
The derivation stays one, and its meaning is revised: no method looks at punctuation or into a
comment, and methods take locations as they come. Main statement:
`ParseTree.Derivation.meanings_edit`.
-/

namespace TemplateUsage

open Phrase

/-- The revised nodes of a call. -/
def Phrase.Invoked.revise (revision : Revision) (invoked : Invoked) : Invoked :=
  ⟨invoked.callee.revise revision, Node.reviseAll revision invoked.params,
    invoked.hash.revise revision⟩

namespace Grammar

/-! ## Edits -/

/-- Kinds of token that are comments. -/
def isComment : Kind → Bool
  | .htmlComment | .curlyComment => true
  | _ => false

/-- An edit of the tokens of a file, and what it makes of locations and comments in another.
Tokens keep their kinds and, unless they are punctuation or comments, their values. -/
structure Edit (file other : String) where
  token : Token → Token
  locate : Location → Location
  comment : Option Location → String → String
  kind_token : ∀ word, (token word).kind = word.kind
  value_token : ∀ word, isPunctuation word.kind = false → isComment word.kind = false →
    (token word).lexeme.value = word.lexeme.value
  value_comment : ∀ word, isComment word.kind = true →
    (token word).lexeme.value = comment (some (word.lexeme.span.inFile file)) word.lexeme.value
  locate_span : ∀ word,
    locate (word.lexeme.span.inFile file) = (token word).lexeme.span.inFile other
  locate_cover : ∀ first last,
    locate (coverLocation first last) = coverLocation (locate first) (locate last)

variable {file other : String}

/-- The revision that an edit makes of trees. -/
def Edit.revision (edit : Edit file other) : Revision where
  place := Option.map edit.locate
  comment := edit.comment
  literal := id

/-! ## Trees -/

section Trees

variable (write : Token → Token)

mutual

/-- The tree over rewritten tokens. -/
def ParseTree.rewrite : ParseTree → ParseTree
  | .leaf token => .leaf (write token)
  | .node production children => .node production (rewriteForest children)

/-- The trees over rewritten tokens. -/
def rewriteForest : List ParseTree → List ParseTree
  | [] => []
  | tree :: rest => tree.rewrite :: rewriteForest rest

end

/-- Trees are rewritten one by one. -/
theorem rewriteForest_eq_map (trees : List ParseTree) :
    rewriteForest write trees = trees.map (ParseTree.rewrite write) := by
  induction trees with
  | nil => rfl
  | cons tree rest ih => rw [rewriteForest, ih, List.map_cons]

mutual

/-- The leaves of a rewritten tree are its leaves, rewritten. -/
theorem ParseTree.tokens_rewrite (tree : ParseTree) :
    (tree.rewrite write).tokens = tree.tokens.map write := by
  cases tree with
  | leaf token => rfl
  | node production children =>
      rw [ParseTree.rewrite, ParseTree.tokens, ParseTree.tokens, forestTokens_rewrite]
termination_by structural tree

theorem forestTokens_rewrite (trees : List ParseTree) :
    forestTokens (rewriteForest write trees) = (forestTokens trees).map write := by
  cases trees with
  | nil => rfl
  | cons tree rest =>
      rw [rewriteForest, forestTokens, forestTokens, ParseTree.tokens_rewrite,
        forestTokens_rewrite, List.map_append]
termination_by structural trees

end

variable {write} (hkind : ∀ token, (write token).kind = token.kind)
include hkind

/-- A tree is still one of the same symbol if the tokens keep their kinds. -/
theorem ParseTree.root_rewrite (tree : ParseTree) : (tree.rewrite write).root = tree.root := by
  cases tree with
  | leaf token => exact congrArg Symbol.token (hkind token)
  | node production children => rfl

/-- A tree stays valid, since the children keep their roots. -/
theorem ParseTree.Valid.rewrite {tree : ParseTree} (h : tree.Valid) :
    (tree.rewrite write).Valid := by
  induction h with
  | leaf token => exact .leaf _
  | @node production children hright _ ih =>
      rw [ParseTree.rewrite, rewriteForest_eq_map]
      refine .node ?_ ?_
      · rw [List.map_map]
        have hroots : ParseTree.root ∘ ParseTree.rewrite write = ParseTree.root :=
          funext (ParseTree.root_rewrite hkind)
        rwa [hroots]
      · intro child hchild
        obtain ⟨original, horiginal, rfl⟩ := List.mem_map.1 hchild
        exact ih original horiginal

/-- Validity only asks for kinds, so a derivation is one of the rewritten tokens too. -/
theorem ParseTree.Derivation.rewrite {tree : ParseTree} {tokens : List Token}
    (h : tree.Derivation tokens) :
    (tree.rewrite write).Derivation (tokens.map write) := by
  refine ⟨h.valid.rewrite hkind, ?_, ?_⟩
  · rw [ParseTree.root_rewrite hkind, h.root_eq]
  · rw [ParseTree.tokens_rewrite, h.tokens_eq]

end Trees

/-! ## Meanings -/

variable (edit : Edit file other)

/-- The revised meaning. A token that has a meaning keeps its value; comments are seen to where
they stand. -/
def Meaning.revise : Meaning → Meaning
  | .token word => .token ⟨word.kind, word.lexeme.value, (edit.token word).lexeme.span⟩
  | .node tree => .node (tree.revise edit.revision)
  | .invoked call => .invoked (call.revise edit.revision)
  | .names found => .names found
  | .parts attributes modifiers found =>
      .parts (attributes.map (Node.revise edit.revision))
        (modifiers.map (Node.revise edit.revision)) found
  | .nodes trees => .nodes (trees.map (Node.revise edit.revision))
  | .absent => .absent

/-- The reason, told of the revised place. -/
def Stop.revise : Stop → Stop
  | .raised fault location => .raised fault (location.map edit.locate)
  | .numeral error => .numeral error
  | .misfit => .misfit

/-- The revised outcome. -/
def revised {α : Type} (revise : α → α) : Except Stop α → Except Stop α
  | .ok value => .ok (revise value)
  | .error stop => .error (stop.revise edit)

/-- The revised outcome of a method. -/
def revisedMeanings : Except Stop (List Meaning) → Except Stop (List Meaning) :=
  revised edit (List.map (Meaning.revise edit))

/-- Two steps in a row commute with the edit if each of them does. -/
theorem revised_bind {α β : Type} {first : α → α} {second : β → β} (result : Except Stop α)
    {next then_ : α → Except Stop β}
    (h : ∀ value, then_ (first value) = revised edit second (next value)) :
    revised edit first result >>= then_ = revised edit second (result >>= next) := by
  cases result with
  | ok value => exact h value
  | error stop => rfl

/-- A revised node has the revised location, if it has one. -/
theorem location?_revise (node : Node) :
    (node.revise edit.revision).location? = node.location?.map edit.locate := by
  cases node <;> rfl

/-! ## Methods

A method commutes with an edit: it makes of revised parts, at the revised location, what it
makes of the parts, revised. -/

variable (location : Option Location) (parts : List Meaning)

/-- Taking all parts for nodes fails for the same reason or gives the revised nodes. -/
theorem nodesOf_revise :
    nodesOf (parts.map (Meaning.revise edit)) =
      revised edit (List.map (Node.revise edit.revision)) (nodesOf parts) := by
  induction parts with
  | nil => rfl
  | cons part rest ih =>
      cases part with
      | node node =>
          rw [List.map_cons, Meaning.revise, nodesOf, nodesOf, ih]
          exact revised_bind edit (nodesOf rest) fun nodes => rfl
      | _ => rfl

/-- A method on one token commutes if the node that it makes is revised. -/
theorem tokenMethod_revise {make again : String → Node}
    (h : ∀ value, again value = (make value).revise edit.revision) :
    tokenMethod again (parts.map (Meaning.revise edit)) =
      revisedMeanings edit (tokenMethod make parts) := by
  cases parts with
  | nil => rfl
  | cons part rest =>
      cases part with
      | token token =>
          cases rest with
          | nil =>
              show Except.ok [Meaning.node (again token.lexeme.value)] = _
              rw [h]
              rfl
          | cons _ _ => rfl
      | _ => rfl

/-- An invocation of any form is revised with its location and its call. -/
theorem invocationMethod_revise (form : InvocationForm) :
    invocationMethod (location.map edit.locate) form
        (parts.map (Meaning.revise edit)) =
      revisedMeanings edit (invocationMethod location form parts) := by
  cases parts with
  | nil => rfl
  | cons part rest =>
      cases part with
      | invoked invoked => cases rest <;> rfl
      | _ => rfl

/-- A method on nodes commutes if what it makes of revised nodes is revised. -/
theorem nodesMethod_revise {make again : List Node → Meaning}
    (h : ∀ nodes, again (nodes.map (Node.revise edit.revision)) = (make nodes).revise edit) :
    nodesMethod again (parts.map (Meaning.revise edit)) =
      revisedMeanings edit (nodesMethod make parts) := by
  rw [nodesMethod, nodesMethod, nodesOf_revise]
  refine revised_bind edit (nodesOf parts) fun nodes => ?_
  rw [h]
  rfl

/-- An atom is revised, and a numeral that cannot be read is refused as before. -/
theorem atomMethod_revise (sort : Atom) :
    atomMethod (location.map edit.locate) sort (parts.map (Meaning.revise edit)) =
      revisedMeanings edit (atomMethod location sort parts) := by
  cases parts with
  | nil => rfl
  | cons part rest =>
      cases part with
      | token token =>
          cases rest with
          | nil =>
              rw [List.map_singleton, Meaning.revise, atomMethod, atomMethod]
              dsimp only
              split
              · rfl
              · split <;> rfl
          | cons _ _ => rfl
      | _ => rfl

theorem isPair_revise (node : Node) : isPair (node.revise edit.revision) = isPair node := by
  cases node <;> rfl

/-- The location of a hash goes from its first pair to its last. -/
theorem hashLocation_revise (pairs : List Node) :
    hashLocation (pairs.map (Node.revise edit.revision)) =
      (hashLocation pairs).map edit.locate := by
  have hbind : ∀ found : Option Node,
      (found.map (Node.revise edit.revision)).bind Node.location? =
        (found.bind Node.location?).map edit.locate := by
    intro found
    cases found with
    | none => rfl
    | some node => exact location?_revise edit node
  rw [hashLocation, hashLocation, List.head?_map, List.getLast?_map, hbind, hbind]
  cases pairs.head?.bind Node.location? with
  | none => rfl
  | some first =>
      cases pairs.getLast?.bind Node.location? with
      | none => rfl
      | some last => exact congrArg some (edit.locate_cover first last).symm

/-- A call is revised, with its arguments and pairs told apart as before. -/
theorem callMethod_revise :
    callMethod (parts.map (Meaning.revise edit)) =
      revisedMeanings edit (callMethod parts) := by
  cases parts with
  | nil => rfl
  | cons part rest =>
      cases part with
      | node callee =>
          rw [List.map_cons, Meaning.revise, callMethod, callMethod, nodesOf_revise]
          refine revised_bind edit (nodesOf rest) fun nodes => ?_
          have hpairs : isPair ∘ Node.revise edit.revision = isPair := funext (isPair_revise edit)
          have hothers : (fun node => !isPair node) ∘ Node.revise edit.revision =
              fun node => !isPair node := by
            funext node
            exact congrArg not (isPair_revise edit node)
          dsimp only
          rw [List.filter_map, List.filter_map, hpairs, hothers, hashLocation_revise,
            ← Node.reviseAll_eq_map, ← Node.reviseAll_eq_map]
          rfl
      | _ => rfl

theorem pairMethod_revise :
    pairMethod (location.map edit.locate) (parts.map (Meaning.revise edit)) =
      revisedMeanings edit (pairMethod location parts) := by
  cases parts with
  | nil => rfl
  | cons part rest =>
      cases part with
      | token key =>
          cases rest with
          | nil => rfl
          | cons value rest =>
              cases value with
              | node node => cases rest <;> rfl
              | _ => rfl
      | _ => rfl

theorem names?_revise (meaning : Meaning) : (meaning.revise edit).names? = meaning.names? := by
  cases meaning <;> rfl

theorem node?_revise (meaning : Meaning) :
    (meaning.revise edit).node? = meaning.node?.map (Option.map (Node.revise edit.revision)) := by
  cases meaning <;> rfl

/-- The name of a block does not depend on where it stands. -/
theorem calleeTitle_revise (node : Node) :
    calleeTitle (node.revise edit.revision) = calleeTitle node := by
  cases node with
  | literal place value => cases value <;> rfl
  | _ => rfl

theorem isPath_revise (node : Node) : isPath (node.revise edit.revision) = isPath node := by
  cases node <;> rfl

/-- The tree of a block is revised with its call, its program and its inverse. -/
theorem sectionNode_revise (invoked : Invoked) (names : List String) (program : Node)
    (inverse : Option Node) :
    sectionNode (location.map edit.locate) (invoked.revise edit.revision) names
        (program.revise edit.revision) (inverse.map (Node.revise edit.revision)) =
      (sectionNode location invoked names program inverse).revise edit.revision := by
  have hprogram : declareNames names (program.revise edit.revision) =
      (declareNames names program).revise edit.revision := by
    cases program <;> rfl
  rw [sectionNode, sectionNode, hprogram]
  cases inverse <;> rfl

omit parts in
/-- A block of the five parts it should have is revised, or fails for the same mismatch of names,
told of the revised place. -/
theorem blockMethod_parts_revise (invoked : Invoked) (params : Meaning) (program : Node)
    (ending : Meaning) (place : Option Location) (closed : String) :
    blockMethod (location.map edit.locate)
        ([.invoked invoked, params, .node program, ending, .node (.path place closed)].map
          (Meaning.revise edit)) =
      revisedMeanings edit
        (blockMethod location
          [.invoked invoked, params, .node program, ending, .node (.path place closed)]) := by
  show blockMethod _ [.invoked (invoked.revise edit.revision), params.revise edit,
    .node (program.revise edit.revision), ending.revise edit,
    .node (.path (place.map edit.locate) closed)] = _
  rw [blockMethod, blockMethod, names?_revise, node?_revise]
  cases params.names? with
  | none => rfl
  | some names =>
      cases ending.node? with
      | none => rfl
      | some inverse =>
          have htitle : calleeTitle (invoked.revise edit.revision).callee =
              calleeTitle invoked.callee :=
            calleeTitle_revise edit invoked.callee
          have hpath : isPath (invoked.revise edit.revision).callee = isPath invoked.callee :=
            isPath_revise edit invoked.callee
          dsimp only [Option.map_some]
          rw [htitle, hpath]
          split
          · rw [sectionNode_revise]
            rfl
          · rfl

/-- A block commutes with the edit. Parts that are not those of a block fit neither before nor
after. -/
theorem blockMethod_revise :
    blockMethod (location.map edit.locate) (parts.map (Meaning.revise edit)) =
      revisedMeanings edit (blockMethod location parts) := by
  cases parts with
  | nil => rfl
  | cons first rest =>
      cases first with
      | invoked invoked =>
          rcases rest with _ | ⟨params, _ | ⟨program, rest⟩⟩
          · rfl
          · rfl
          · cases program with
            | node program =>
                rcases rest with _ | ⟨ending, _ | ⟨close, rest⟩⟩
                · rfl
                · rfl
                · cases close with
                  | node close =>
                      cases close with
                      | path place closed =>
                          cases rest with
                          | nil =>
                              exact blockMethod_parts_revise edit location invoked params
                                program ending place closed
                          | cons _ _ => rfl
                      | _ => rfl
                  | _ => rfl
            | _ => rfl
      | _ => rfl

theorem otherwiseMethod_revise :
    otherwiseMethod (location.map edit.locate) (parts.map (Meaning.revise edit)) =
      revisedMeanings edit (otherwiseMethod location parts) := by
  cases parts with
  | nil => rfl
  | cons part rest =>
      cases part with
      | node program =>
          cases rest with
          | nil => cases program <;> rfl
          | cons _ _ => rfl
      | _ => rfl

omit parts in
/-- The same of `else` with a head, which has no name to check. -/
theorem chainedMethod_parts_revise (invoked : Invoked) (params : Meaning) (program : Node)
    (ending : Meaning) :
    chainedMethod (location.map edit.locate)
        ([.invoked invoked, params, .node program, ending].map (Meaning.revise edit)) =
      revisedMeanings edit
        (chainedMethod location [.invoked invoked, params, .node program, ending]) := by
  show chainedMethod _ [.invoked (invoked.revise edit.revision), params.revise edit,
    .node (program.revise edit.revision), ending.revise edit] = _
  rw [chainedMethod, chainedMethod, names?_revise, node?_revise]
  cases params.names? with
  | none => rfl
  | some names =>
      cases ending.node? with
      | none => rfl
      | some inverse =>
          dsimp only [Option.map_some]
          rw [sectionNode_revise]
          rfl

theorem chainedMethod_revise :
    chainedMethod (location.map edit.locate) (parts.map (Meaning.revise edit)) =
      revisedMeanings edit (chainedMethod location parts) := by
  cases parts with
  | nil => rfl
  | cons first rest =>
      cases first with
      | invoked invoked =>
          rcases rest with _ | ⟨params, _ | ⟨program, rest⟩⟩
          · rfl
          · rfl
          · cases program with
            | node program =>
                rcases rest with _ | ⟨ending, _ | ⟨_, _⟩⟩
                · rfl
                · exact chainedMethod_parts_revise edit location invoked params program ending
                · rfl
            | _ => rfl
      | _ => rfl

theorem paramsMethod_revise :
    paramsMethod (parts.map (Meaning.revise edit)) =
      revisedMeanings edit (paramsMethod parts) := by
  cases parts with
  | nil => rfl
  | cons part rest =>
      cases part with
      | token token => cases rest <;> rfl
      | _ => rfl

theorem filterMap_revise {select : Meaning → Option Node}
    (h : ∀ meaning,
      select (meaning.revise edit) = (select meaning).map (Node.revise edit.revision)) :
    (parts.map (Meaning.revise edit)).filterMap select =
      (parts.filterMap select).map (Node.revise edit.revision) := by
  rw [List.filterMap_map, List.map_filterMap]
  exact congrArg (List.filterMap · parts) (funext h)

/-- The parts of a tag are sorted into attributes, modifiers and names as before. -/
theorem tagPartsMethod_revise :
    tagPartsMethod (parts.map (Meaning.revise edit)) =
      revisedMeanings edit (tagPartsMethod parts) := by
  have hattribute : ∀ meaning : Meaning, (meaning.revise edit).attribute? =
      meaning.attribute?.map (Node.revise edit.revision) := by
    intro meaning
    cases meaning with
    | node node => cases node <;> rfl
    | _ => rfl
  have hmodifier : ∀ meaning : Meaning, (meaning.revise edit).modifier? =
      meaning.modifier?.map (Node.revise edit.revision) := by
    intro meaning
    cases meaning with
    | node node =>
        cases node with
        | invocation place form callee params named => cases form <;> rfl
        | _ => rfl
    | _ => rfl
  have hdeclared : ∀ meaning : Meaning, (meaning.revise edit).declared = meaning.declared := by
    intro meaning
    cases meaning <;> rfl
  rw [tagPartsMethod, tagPartsMethod, filterMap_revise edit parts hattribute,
    filterMap_revise edit parts hmodifier, List.flatMap_map]
  simp only [hdeclared]
  rfl

/-- An element is revised, or fails for the same mismatch of tags. -/
theorem elementMethod_revise :
    elementMethod other (location.map edit.locate)
        (parts.map (Meaning.revise edit)) =
      revisedMeanings edit (elementMethod file location parts) := by
  rcases parts with _ | ⟨startTag, _ | ⟨tagParts, _ | ⟨members, _ | ⟨endTag, rest⟩⟩⟩⟩
  · rfl
  · cases startTag <;> rfl
  · cases startTag <;> cases tagParts <;> rfl
  · cases startTag <;> cases tagParts <;> cases members <;> rfl
  · cases startTag with
    | token startTag =>
        cases tagParts with
        | parts attributes modifiers names =>
            cases members with
            | nodes members =>
                cases endTag with
                | token endTag =>
                    cases rest with
                    | nil =>
                        simp only [List.map_cons, List.map_nil, Meaning.revise, elementMethod]
                        split
                        · -- the tags match, as they did before the edit
                          rw [← Node.reviseAll_eq_map, ← Node.reviseAll_eq_map,
                            ← Node.reviseAll_eq_map]
                          rfl
                        · have hplace := (edit.locate_span endTag).symm
                          exact congrArg
                            (fun place => Except.error (Stop.raised _ (some place))) hplace
                    | cons _ _ => rfl
                | _ => rfl
            | _ => rfl
        | _ => rfl
    | _ => rfl

/-- An element without content is revised. -/
theorem emptyElementMethod_revise (selfClosing : Bool) :
    emptyElementMethod (location.map edit.locate) selfClosing
        (parts.map (Meaning.revise edit)) =
      revisedMeanings edit (emptyElementMethod location selfClosing parts) := by
  rcases parts with _ | ⟨startTag, _ | ⟨tagParts, rest⟩⟩
  · rfl
  · cases startTag <;> rfl
  · cases startTag with
    | token startTag =>
        cases tagParts with
        | parts attributes modifiers names =>
            cases rest with
            | nil =>
                simp only [List.map_cons, List.map_nil, Meaning.revise, emptyElementMethod]
                rw [← Node.reviseAll_eq_map, ← Node.reviseAll_eq_map]
                rfl
            | cons _ _ => rfl
        | _ => rfl
    | _ => rfl

theorem attributeMethod_revise :
    attributeMethod (location.map edit.locate) (parts.map (Meaning.revise edit)) =
      revisedMeanings edit (attributeMethod location parts) := by
  rcases parts with _ | ⟨name, _ | ⟨value, rest⟩⟩
  · rfl
  · cases name <;> rfl
  · cases name with
    | token name =>
        cases rest with
        | nil => cases value <;> rfl
        | cons _ _ => rfl
    | _ => rfl

/-- A quoted value is revised, be it one text or put together from several parts. -/
theorem quotedNode_revise (nodes : List Node) :
    quotedNode (location.map edit.locate) (nodes.map (Node.revise edit.revision)) =
      (quotedNode location nodes).revise edit.revision := by
  have htext : ∀ node : Node, textChars? (node.revise edit.revision) = textChars? node := by
    intro node
    cases node <;> rfl
  have htexts : (nodes.map (Node.revise edit.revision)).mapM textChars? =
      nodes.mapM textChars? := by
    induction nodes with
    | nil => rfl
    | cons node rest ih => rw [List.map_cons, List.mapM_cons, List.mapM_cons, htext, ih]
  rw [quotedNode, quotedNode, htexts]
  cases nodes.mapM textChars? with
  | none =>
      rw [← Node.reviseAll_eq_map]
      rfl
  | some texts => rfl

/-- The method of each production commutes with the edit, unless the phrase is a comment. -/
theorem Production.method_revise {production : Production} (hhtml : production ≠ .htmlComment)
    (hcurly : production ≠ .curlyComment) :
    production.method other (location.map edit.locate) (parts.map (Meaning.revise edit)) =
      revisedMeanings edit (production.method file location parts) := by
  cases production with
  | start =>
      refine nodesMethod_revise edit parts fun nodes => ?_
      rw [← Node.reviseAll_eq_map]
      rfl
  | choice whole part mem => rfl
  | text | unquotedValue | attributeText =>
      exact tokenMethod_revise edit parts fun value => rfl
  | htmlComment => exact absurd rfl hhtml
  | curlyComment => exact absurd rfl hcurly
  | mustache trusting => exact invocationMethod_revise edit location parts (.mustache trusting)
  | block params inverse => exact blockMethod_revise edit location parts
  | program =>
      refine nodesMethod_revise edit parts fun nodes => ?_
      rw [← Node.reviseAll_eq_map]
      rfl
  | otherwise => exact otherwiseMethod_revise edit location parts
  | chained params inverse => exact chainedMethod_revise edit location parts
  | blockParams => exact paramsMethod_revise edit parts
  | call => exact callMethod_revise edit parts
  | pair => exact pairMethod_revise edit location parts
  | atom sort => exact atomMethod_revise edit location parts sort
  | nested => exact invocationMethod_revise edit location parts .subExpression
  | element => exact elementMethod_revise edit location parts
  | selfClosing => exact emptyElementMethod_revise edit location parts true
  | void => exact emptyElementMethod_revise edit location parts false
  | tagParts => exact tagPartsMethod_revise edit parts
  | elementBody => exact nodesMethod_revise edit parts fun nodes => rfl
  | modifier => exact invocationMethod_revise edit location parts .modifier
  | «attribute» valued => exact attributeMethod_revise edit location parts
  | quotedValue =>
      refine nodesMethod_revise edit parts fun nodes => ?_
      rw [Meaning.revise, quotedNode_revise]

/-! ## Derivations -/

theorem fillSlot_revise (index : Nat) (present : Bool) :
    fillSlot index present (parts.map (Meaning.revise edit)) =
      (fillSlot index present parts).map (Meaning.revise edit) := by
  unfold fillSlot
  split
  · rfl
  · rw [List.map_append, List.map_cons, List.map_take, List.map_drop]
    rfl

/-- The parts that a rule leaves out are filled in before or after the edit. -/
theorem Production.slots_revise (production : Production) :
    production.slots (parts.map (Meaning.revise edit)) =
      (production.slots parts).map (Meaning.revise edit) := by
  cases production with
  | block params inverse | chained params inverse =>
      rw [Production.slots, Production.slots, fillSlot_revise, fillSlot_revise]
  | «attribute» valued => rw [Production.slots, Production.slots, fillSlot_revise]
  | _ => rfl

/-- The location of tokens is revised with them. -/
theorem tokensLocation?_edit (tokens : List Token) :
    tokensLocation? other (tokens.map edit.token) =
      (tokensLocation? file tokens).map edit.locate := by
  rw [tokensLocation?, tokensLocation?, tokensSpan?, tokensSpan?, listSpan?, listSpan?,
    List.head?_map, List.getLast?_map]
  cases tokens.head? with
  | none => rfl
  | some first =>
      cases tokens.getLast? with
      | none => rfl
      | some last =>
          refine congrArg some ?_
          have hcover := edit.locate_cover (first.lexeme.span.inFile file)
            (last.lexeme.span.inFile file)
          rw [edit.locate_span, edit.locate_span] at hcover
          exact hcover.symm

/-- Whether an item stands for comments. -/
def Item.isComment : Item → Bool
  | .one (.token kind) | .many (.token kind) => Grammar.isComment kind
  | _ => false

theorem Expands.isComment_eq_false {items : List Item} {symbols : List Symbol}
    (h : Expands items symbols) (hitems : ∀ item ∈ items, item.isComment = false) {kind : Kind}
    (hmem : .token kind ∈ symbols) : Grammar.isComment kind = false := by
  induction h with
  | nil => cases hmem
  | one _ ih =>
      rcases List.mem_cons.1 hmem with rfl | hmem
      · exact hitems _ List.mem_cons_self
      · exact ih (fun item hitem => hitems item (List.mem_cons_of_mem _ hitem)) hmem
  | enough _ ih => exact ih (fun item hitem => hitems item (List.mem_cons_of_mem _ hitem)) hmem
  | again _ ih =>
      rcases List.mem_cons.1 hmem with rfl | hmem
      · exact hitems _ List.mem_cons_self
      · exact ih hitems hmem

/-- Only a phrase that is a comment has one for a part. -/
theorem Production.isComment_eq_false {production : Production}
    (hhtml : production ≠ .htmlComment) (hcurly : production ≠ .curlyComment) :
    ∀ item ∈ production.right, item.isComment = false := by
  -- the right sides that depend on a flag are decided for each value of it
  have hall : production.right.all (fun item => !item.isComment) = true := by
    cases production with
    | htmlComment => exact absurd rfl hhtml
    | curlyComment => exact absurd rfl hcurly
    | mustache trusting => cases trusting <;> rfl
    | block params inverse | chained params inverse =>
        cases params <;> cases inverse <;> rfl
    | atom sort => cases sort <;> rfl
    | «attribute» valued => cases valued <;> rfl
    | _ => rfl
  intro item hitem
  simpa using List.all_eq_true.1 hall item hitem

theorem forestMeanings_edit {trees : List ParseTree}
    (h : ∀ tree ∈ trees,
      (tree.rewrite edit.token).meanings other = revisedMeanings edit (tree.meanings file)) :
    forestMeanings other (rewriteForest edit.token trees) =
      revisedMeanings edit (forestMeanings file trees) := by
  induction trees with
  | nil => rfl
  | cons tree rest ih =>
      rw [rewriteForest, forestMeanings, forestMeanings, h tree List.mem_cons_self,
        ih fun other hother => h other (List.mem_cons_of_mem tree hother)]
      refine revised_bind edit (tree.meanings file) fun first => ?_
      refine revised_bind edit (forestMeanings file rest) fun others => ?_
      rw [← List.map_append]
      rfl

/-- A token that means something keeps its kind and its value. -/
theorem Edit.token_eq {word : Token} (hpunctuation : isPunctuation word.kind = false)
    (hcomment : isComment word.kind = false) :
    edit.token word = ⟨word.kind, word.lexeme.value, (edit.token word).lexeme.span⟩ := by
  rw [← edit.value_token word hpunctuation hcomment, ← edit.kind_token word]

/-- A phrase that is no comment is revised if its parts are. -/
theorem ParseTree.meanings_edit_node {production : Production} {children : List ParseTree}
    (hhtml : production ≠ .htmlComment) (hcurly : production ≠ .curlyComment)
    (h : ∀ child ∈ children,
      (child.rewrite edit.token).meanings other = revisedMeanings edit (child.meanings file)) :
    ((ParseTree.node production children).rewrite edit.token).meanings other =
      revisedMeanings edit ((ParseTree.node production children).meanings file) := by
  rw [ParseTree.rewrite, ParseTree.meanings, ParseTree.meanings, forestMeanings_edit edit h,
    forestTokens_rewrite, tokensLocation?_edit]
  refine revised_bind edit (forestMeanings file children) fun parts => ?_
  rw [Production.slots_revise, Production.method_revise edit _ _ hhtml hcurly]
  rfl

/-- A comment is revised with its place and what it says. -/
theorem ParseTree.meanings_edit_comment {production : Production} {kind : Kind}
    {make : Option Location → String → Node} (hkind : isComment kind = true)
    (hmethod : ∀ file location parts,
      production.method file location (production.slots parts) = tokenMethod (make location) parts)
    (hmake : ∀ location value, (make location value).revise edit.revision =
      make (location.map edit.locate) (edit.comment location value))
    {children : List ParseTree} (h : Fills ParseTree.Valid [.token kind] children) :
    ((ParseTree.node production children).rewrite edit.token).meanings other =
      revisedMeanings edit ((ParseTree.node production children).meanings file) := by
  obtain ⟨lexeme, rest, rfl, hrest⟩ := h.exists_token
  obtain rfl := hrest.eq_nil
  have hpunctuation : isPunctuation kind = false := by
    cases kind <;> first | rfl | cases hkind
  -- said of both files, since the edited comment is a comment too
  have hmeanings : ∀ (file : String) (word : Token), word.kind = kind →
      (ParseTree.node production [.leaf word]).meanings file =
        .ok [.node (make (some (word.lexeme.span.inFile file)) word.lexeme.value)] := by
    intro file word hword
    simp only [ParseTree.meanings, forestMeanings, hword, hpunctuation]
    exact hmethod file _ _
  rw [ParseTree.rewrite, rewriteForest, rewriteForest, ParseTree.rewrite,
    hmeanings other _ (edit.kind_token _), hmeanings file _ rfl,
    edit.value_comment ⟨kind, lexeme⟩ hkind, ← edit.locate_span]
  exact congrArg (fun node => Except.ok [Meaning.node node])
    (hmake (some (lexeme.span.inFile file)) lexeme.value).symm

/-- An edit of the tokens of a tree revises its meaning, unless the tree is the token of a comment:
what a comment says is revised where its place is known, in the phrase that it is. -/
theorem ParseTree.Valid.meanings_edit {tree : ParseTree} (h : tree.Valid)
    (hroot : ∀ kind, tree.root = .token kind → isComment kind = false) :
    (tree.rewrite edit.token).meanings other = revisedMeanings edit (tree.meanings file) := by
  induction h with
  | leaf word =>
      have hcomment := hroot word.kind rfl
      rw [ParseTree.rewrite, ParseTree.meanings, ParseTree.meanings, edit.kind_token]
      cases hpunctuation : isPunctuation word.kind with
      | true => rfl
      | false =>
          rw [edit.token_eq hpunctuation hcomment]
          rfl
  | @node production children hright hvalid ih =>
      -- the token of a comment has no revised meaning, but the phrase around it has
      by_cases hhtml : production = .htmlComment
      · subst hhtml
        exact meanings_edit_comment edit rfl (fun _ _ _ => rfl) (fun _ _ => rfl) ⟨hright, hvalid⟩
      by_cases hcurly : production = .curlyComment
      · subst hcurly
        exact meanings_edit_comment edit rfl (fun _ _ _ => rfl) (fun _ _ => rfl) ⟨hright, hvalid⟩
      refine meanings_edit_node edit hhtml hcurly fun child hchild => ih child hchild ?_
      intro kind hkind
      refine hright.isComment_eq_false (Production.isComment_eq_false hhtml hcurly) ?_
      exact hkind ▸ List.mem_map_of_mem hchild

/-- An edit of the tokens of a derivation revises its meaning. -/
theorem ParseTree.Derivation.meanings_edit {tree : ParseTree} {tokens : List Token}
    (h : tree.Derivation tokens) :
    (tree.rewrite edit.token).meanings other = revisedMeanings edit (tree.meanings file) := by
  refine h.valid.meanings_edit edit fun kind hkind => ?_
  rw [h.root_eq] at hkind
  cases hkind

end Grammar

end TemplateUsage
