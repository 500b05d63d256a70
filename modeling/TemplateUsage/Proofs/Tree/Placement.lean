import TemplateUsage.Proofs.Grammar.Balance
import TemplateUsage.Proofs.Grammar.Building
import TemplateUsage.Proofs.Tree.Nesting

set_option autoImplicit false

/-!
# Where the nodes of a tree are placed

`Node.WellPlaced` says of one node what its location and those of the nodes it holds
have to do with the text: they are counted right, nested and in order, nothing is
without a location but what is not written, and the statements it holds fill the text
between the two tokens around them. This module states it, and proves it for the nodes
of calls and of opening tags.
-/

namespace TemplateUsage

open Grammar Scan

/-! ## Places -/

/-- How a token that stands around statements is written on the side of the
statements. -/
def Kind.fence : Kind → List Char
  | .tagEnd => ['>']
  | .endTag => ['<', '/']
  | .closeCurly => ['\x7d', '\x7d']
  | .openElse | .openEndBlock => ['\x7b', '\x7b']
  | _ => []

/-- The nodes stand end to end from one offset to another. -/
def EndToEnd : Int → List Node → Int → Prop
  | start, [], stop => start = stop
  | start, node :: rest, stop =>
      ∃ location ∈ node.location?, location.start = start ∧ EndToEnd location.stop rest stop

/-- The nodes fill the text between two tokens: the first token of kind `closing` from
the offset `start` on, and the token `next`. -/
def Encloses (text : List Char) (tokens : List Token) (start : Int) (closing : Kind)
    (nodes : List Node) (next : Token) : Prop :=
  ∃ (before opening inner after : List Token) (first last : Token),
    tokens = before ++ (opening ++ last :: (inner ++ next :: after)) ∧
    opening.head? = some first ∧ (first.start : Int) = start ∧
    (∀ token ∈ opening, token.kind ≠ closing) ∧ last.kind = closing ∧
    last.kind.fence <:+ text.take last.stop ∧ next.kind.fence <+: text.drop next.start ∧
    EndToEnd last.stop nodes next.start

namespace Node

/-- The child of a node stands for something that is not written: the pairs of a call
that has none, an empty program, the value of an attribute of which only the name is
there. -/
inductive Omits (text : List Char) : Node → Node → Prop where
  | pairs {parent : Node} {location : Option Location} :
      parent.hash? = some (.hash location []) → Omits text parent (.hash location [])
  | program {location inner : Option Location} {callee named : Node} {params : List Node}
      {names : List String} {chained : Bool} {inverse : Option Node} :
      Omits text (.block location callee params named (.body inner names [] chained) inverse)
        (.body inner names [] chained)
  | value {location : Location} {name : String} {value : Node} :
      slice text location.start.toNat location.stop.toNat = name.toList →
        Omits text (.attribute (some location) name value) value

/-- What stands after the program of a block: its else, which starts with the token, or
the closing of the block. The statements of a plain else fill the text up to that
closing. -/
def Continues (text : List Char) (tokens : List Token) (next : Token) : Option Node → Prop
  | none => next.kind = .openEndBlock
  | some inverse =>
      next.kind = .openElse ∧ ∃ location names statements chained,
        inverse = .body (some location) names statements chained ∧
        (next.start : Int) = location.start ∧
        (chained = false → ∃ close : Token, close.kind = .openEndBlock ∧
          Encloses text tokens location.start .closeCurly statements close)

/-- The statements of an element, of a program and of a plain else fill the text
between the tokens around them. -/
def Filled (text : List Char) (tokens : List Token) : Node → Prop
  | .element location _ _ _ _ members _ =>
      members ≠ [] → ∃ place ∈ location, ∃ next : Token,
        next.kind = .endTag ∧ (next.stop : Int) = place.stop ∧
          Encloses text tokens place.start .tagEnd members next
  | .block location _ _ _ program inverse =>
      ∃ place ∈ location, ∃ (next : Token) (inner : Option Location) (names : List String)
          (statements : List Node),
        program = .body inner names statements false ∧
          Encloses text tokens place.start .closeCurly statements next ∧
          Continues text tokens next inverse
  | _ => True

/-- What holds of a node of a parsed text, and of the nodes it holds. -/
structure WellPlaced (file : String) (text : List Char) (tokens : List Token) (node : Node) :
    Prop where
  counted : ∀ location ∈ node.location?, ∃ start stop,
    start < stop ∧ stop ≤ text.length ∧ location = locationAt file text start stop
  inside : ∀ child ∈ node.children, ∀ location ∈ child.location?, ∃ outer ∈ node.location?,
    outer.start ≤ location.start ∧ location.stop ≤ outer.stop
  ordered : ∀ siblings ∈ node.childLists, siblings.Pairwise Precedes
  omitted : ∀ child ∈ node.children, child.location? = none ↔ node.Omits text child
  filled : node.Filled text tokens

/-- The nodes at one place of a node are spread over its tokens, or nothing is written
there. -/
def Arranged (file : String) (text : List Char) (tokens : List Token) (node : Node)
    (siblings : List Node) : Prop :=
  Spread file tokens siblings ∨
    ∃ child, siblings = [child] ∧ child.location? = none ∧ node.Omits text child

section

variable {file : String} {text : List Char} {scanned : List Token}

/-- A node that covers laid out tokens is well placed if its children are arranged in them. -/
theorem WellPlaced.of_arranged {opened : List Construct} {offset : Nat} {tokens : List Token}
    {node : Node} (hlaid : Laid text opened offset tokens) (hcovers : Covers file tokens node)
    (harranged : ∀ siblings ∈ node.childLists, node.Arranged file text tokens siblings)
    (homits : ∀ child, node.Omits text child → child.location? = none)
    (hfilled : node.Filled text scanned) : node.WellPlaced file text scanned := by
  refine ⟨?_, ?_, ?_, ?_, hfilled⟩
  · intro location hmem
    obtain ⟨first, rest, rfl, hlocation, hlength⟩ := hcovers.exists_location hlaid
    rw [hlocation] at hmem
    exact ⟨_, _, hlaid.start_lt_stopAfter.2, hlength, (Option.some.inj hmem).symm⟩
  · intro child hchild location hmem
    obtain ⟨siblings, hsiblings, hchild⟩ := List.mem_flatten.1 hchild
    rcases harranged siblings hsiblings with hspread | ⟨bare, rfl, hnone, -⟩
    · exact hspread.inside hlaid hcovers child hchild location hmem
    · obtain rfl := List.mem_singleton.1 hchild
      rw [hnone] at hmem
      cases hmem
  · intro siblings hsiblings
    rcases harranged siblings hsiblings with hspread | ⟨bare, rfl, -, -⟩
    · exact hspread.pairwise hlaid
    · exact List.pairwise_singleton _ _
  · intro child hchild
    refine ⟨fun hnone => ?_, homits child⟩
    obtain ⟨siblings, hsiblings, hchild⟩ := List.mem_flatten.1 hchild
    rcases harranged siblings hsiblings with hspread | ⟨bare, rfl, -, hbare⟩
    · exact absurd hnone (hspread.location_ne_none child hchild)
    · obtain rfl := List.mem_singleton.1 hchild
      exact hbare

/-- A node without a location holds nothing. -/
theorem WellPlaced.of_bare {node : Node} (hnone : node.location? = none)
    (hlists : ∀ siblings ∈ node.childLists, siblings = []) (hfilled : node.Filled text scanned) :
    node.WellPlaced file text scanned := by
  have hchildren : node.children = [] := List.flatten_eq_nil_iff.2 hlists
  refine ⟨?_, ?_, ?_, ?_, hfilled⟩
  · rw [hnone]
    nofun
  · rw [hchildren]
    nofun
  · intro siblings hsiblings
    rw [hlists siblings hsiblings]
    exact .nil
  · rw [hchildren]
    nofun

/-- A node that holds no nodes. -/
theorem everywhere_leaf {opened : List Construct} {offset : Nat} {tokens : List Token}
    {node : Node} (hlaid : Laid text opened offset tokens) (hcovers : Covers file tokens node)
    (hlists : node.childLists = []) (homits : ∀ child, ¬ node.Omits text child)
    (hfilled : node.Filled text scanned) : node.Everywhere (WellPlaced file text scanned) := by
  refine .intro (.of_arranged hlaid hcovers ?_ ?_ hfilled) ?_
  · rw [hlists]
    nofun
  · exact fun child h => absurd h (homits child)
  · rw [children, hlists]
    nofun

end

end Node

namespace Phrase

open Node

variable {file : String} {text : List Char} {scanned : List Token}

/-! ## Calls -/

/-- The nodes of a call are spread over tokens, but for a hash without pairs. -/
structure Invoked.Over (file : String) (tokens : List Token) (invoked : Invoked) : Prop where
  callee : Spread file tokens [invoked.callee]
  params : Spread file tokens invoked.params
  hash : invoked.hash = .hash none [] ∨
    (Spread file tokens [invoked.hash] ∧ ∀ location, invoked.hash ≠ .hash location [])

theorem Invoked.Over.append {tokens : List Token} {invoked : Invoked} (front : List Token)
    (h : invoked.Over file tokens) (back : List Token) :
    invoked.Over file (front ++ tokens ++ back) where
  callee := (h.callee.after front).before back
  params := (h.params.after front).before back
  hash := h.hash.imp_right fun ⟨hspread, hne⟩ => ⟨(hspread.after front).before back, hne⟩

/-- What an invocation omits is the hash of a call without pairs. -/
theorem Invoked.Over.location_eq_none {tokens : List Token} {invoked : Invoked}
    (h : invoked.Over file tokens) {location : Option Location}
    (hhash : invoked.hash = .hash location []) : location = none := by
  rcases h.hash with hbare | ⟨-, hne⟩
  · rw [hbare] at hhash
    cases hhash
    rfl
  · exact absurd hhash (hne location)

/-- The places of a callee, of arguments and of a hash are arranged. -/
theorem Invoked.Over.arranged {tokens : List Token} {invoked : Invoked} {node : Node}
    (h : invoked.Over file tokens) (hhash : node.hash? = some invoked.hash) :
    ∀ siblings ∈ [[invoked.callee], invoked.params, [invoked.hash]],
      node.Arranged file text tokens siblings := by
  simp only [List.forall_mem_cons]
  refine ⟨.inl h.callee, .inl h.params, ?_, nofun⟩
  rcases h.hash with hbare | ⟨hspread, -⟩
  · refine .inr ⟨_, rfl, by rw [hbare]; rfl, ?_⟩
    rw [hbare] at hhash ⊢
    exact .pairs hhash
  · exact .inl hspread

/-- What an expression is built to covers its tokens. -/
theorem Expression.covers_build {expression : Expression} {node : Node}
    (h : expression.build file = .ok node) : Covers file expression.tokens node := by
  refine ⟨expression.span, expression.tokensSpan?_tokens, ?_⟩
  cases expression with
  | atom sort lexeme =>
      obtain ⟨value, -, rfl⟩ | ⟨name, -, rfl⟩ := Expression.of_build_atom h
      · rfl
      · rfl
  | nested opening call closing =>
      obtain ⟨invoked, -, rfl⟩ := Expression.exists_of_build_nested h
      rfl

theorem spread_buildExpressions {arguments : List Expression} {nodes : List Node}
    (h : buildExpressions file arguments = .ok nodes) :
    Spread file (argumentTokens arguments) nodes := by
  induction arguments generalizing nodes with
  | nil =>
      rw [buildExpressions] at h
      cases h
      exact .nil _
  | cons argument rest ih =>
      obtain ⟨node, others, hnode, hothers, rfl⟩ := exists_of_buildExpressions_cons h
      rw [argumentTokens]
      exact (Expression.covers_build hnode).spread.append (ih hothers)

theorem Pair.covers_build {pair : Pair} {node : Node} (h : pair.build file = .ok node) :
    Covers file pair.tokens node := by
  refine ⟨pair.span, pair.tokensSpan?_tokens, ?_⟩
  cases pair with
  | mk key value =>
      obtain ⟨value, -, rfl⟩ := Pair.exists_of_build h
      rfl

theorem spread_buildPairs {pairs : List Pair} {nodes : List Node}
    (h : buildPairs file pairs = .ok nodes) : Spread file (pairTokens pairs) nodes := by
  induction pairs generalizing nodes with
  | nil =>
      rw [buildPairs] at h
      cases h
      exact .nil _
  | cons pair rest ih =>
      obtain ⟨node, others, hnode, hothers, rfl⟩ := exists_of_buildPairs_cons h
      rw [pairTokens]
      exact (Pair.covers_build hnode).spread.append (ih hothers)

/-- A node that is located by phrases covers their tokens, if there are any. -/
theorem covers_of_listLocation? {α : Type} {span : α → Span} {phrases : List α}
    {tokens : List Token} {node : Node} (hne : phrases ≠ [])
    (hspan : tokensSpan? tokens = listSpan? span phrases)
    (hlocation : node.location? = listLocation? file span phrases) : Covers file tokens node := by
  cases phrases with
  | nil => exact absurd rfl hne
  | cons first rest =>
      have hlast := List.getLast?_eq_some_getLast (List.cons_ne_nil first rest)
      rw [listLocation?] at hlocation
      rw [listSpan?, List.head?_cons, hlast] at hspan hlocation
      exact ⟨_, hspan, hlocation⟩

theorem Call.over_build {call : Call} {invoked : Invoked} (h : call.build file = .ok invoked) :
    invoked.Over file call.tokens := by
  cases call with
  | mk callee arguments pairs =>
      obtain ⟨calleeNode, params, pairNodes, hcallee, hparams, hpairs, rfl⟩ :=
        Call.exists_of_build h
      rw [Call.tokens]
      refine ⟨((Expression.covers_build hcallee).spread.before _).before _,
        ((spread_buildExpressions hparams).after _).before _, ?_⟩
      cases pairs with
      | nil =>
          rw [buildPairs] at hpairs
          cases hpairs
          exact .inl rfl
      | cons pair rest =>
          refine .inr ⟨(covers_of_listLocation? (List.cons_ne_nil pair rest)
            (tokensSpan?_pairTokens _) rfl).spread.after _, fun location hhash => ?_⟩
          cases hhash
          obtain ⟨node, others, -, -, ⟨⟩⟩ := exists_of_buildPairs_cons hpairs

/-- An invocation over the tokens of its call. -/
theorem everywhere_invocation {opened : List Construct} {offset : Nat} {tokens : List Token}
    {location : Option Location} {form : InvocationForm} {invoked : Invoked}
    (hlaid : Laid text opened offset tokens)
    (hcovers : Covers file tokens
      (.invocation location form invoked.callee invoked.params invoked.hash))
    (hover : invoked.Over file tokens)
    (hparts : ∀ part ∈ invoked.callee :: (invoked.params ++ [invoked.hash]),
      part.Everywhere (WellPlaced file text scanned)) :
    Everywhere (WellPlaced file text scanned)
      (.invocation location form invoked.callee invoked.params invoked.hash) := by
  refine .intro (.of_arranged hlaid hcovers (hover.arranged rfl) ?_ trivial) ?_
  · intro child homits
    generalize hnode : Node.invocation location form invoked.callee invoked.params invoked.hash =
      node at homits
    cases homits with
    | pairs hhash =>
        rw [← hnode] at hhash
        exact hover.location_eq_none (Option.some.inj hhash)
    | program => cases hnode
    | value => cases hnode
  · intro child hmem
    refine hparts child ?_
    simpa [children, childLists] using hmem

mutual

/-- What an expression is built to is well placed at every depth. -/
theorem Expression.everywhere_build {expression : Expression} {node : Node}
    (hbuild : expression.build file = .ok node) {opened : List Construct} {offset : Nat}
    (hlaid : Laid text opened offset expression.tokens) :
    node.Everywhere (WellPlaced file text scanned) := by
  have hcovers := Expression.covers_build hbuild
  cases expression with
  | atom sort lexeme =>
      obtain ⟨value, -, rfl⟩ | ⟨name, -, rfl⟩ := Expression.of_build_atom hbuild
      · exact everywhere_leaf hlaid hcovers rfl nofun trivial
      · exact everywhere_leaf hlaid hcovers rfl nofun trivial
  | nested opening call closing =>
      obtain ⟨invoked, hinvoked, rfl⟩ := Expression.exists_of_build_nested hbuild
      rw [Expression.tokens] at hlaid hcovers
      have hover := (Call.over_build hinvoked).append [⟨.openParen, opening⟩]
        [⟨.closeParen, closing⟩]
      refine everywhere_invocation hlaid hcovers hover ?_
      obtain ⟨hcall, -⟩ := laid_append.1 hlaid
      exact Call.everywhere_build hinvoked hcall.2.2.2
termination_by structural expression

theorem Call.everywhere_build {call : Call} {invoked : Invoked}
    (hbuild : call.build file = .ok invoked) {opened : List Construct} {offset : Nat}
    (hlaid : Laid text opened offset call.tokens) :
    ∀ part ∈ invoked.callee :: (invoked.params ++ [invoked.hash]),
      part.Everywhere (WellPlaced file text scanned) := by
  cases call with
  | mk callee arguments pairs =>
      obtain ⟨calleeNode, params, pairNodes, hcallee, hparams, hpairs, rfl⟩ :=
        Call.exists_of_build hbuild
      rw [Call.tokens] at hlaid
      obtain ⟨hlaid, hpairsLaid⟩ := laid_append.1 hlaid
      obtain ⟨hcalleeLaid, hargumentsLaid⟩ := laid_append.1 hlaid
      have hpairsPlaced := everywhere_buildPairs hpairs hpairsLaid
      rw [List.forall_mem_cons, List.forall_mem_append, List.forall_mem_singleton]
      refine ⟨Expression.everywhere_build hcallee hcalleeLaid,
        everywhere_buildExpressions hparams hargumentsLaid, .intro ?_ ?_⟩
      · cases pairs with
        | nil =>
            rw [buildPairs] at hpairs
            cases hpairs
            exact .of_bare rfl (List.forall_mem_singleton.2 rfl) trivial
        | cons pair rest =>
            refine .of_arranged hpairsLaid
              (covers_of_listLocation? (List.cons_ne_nil pair rest) (tokensSpan?_pairTokens _) rfl)
              (List.forall_mem_singleton.2 (.inl (spread_buildPairs hpairs))) ?_ trivial
            rintro child ⟨hhash⟩
            cases hhash
      · intro child hmem
        exact hpairsPlaced child (by simpa [children, childLists] using hmem)
termination_by structural call

theorem everywhere_buildExpressions {arguments : List Expression} {nodes : List Node}
    (hbuild : buildExpressions file arguments = .ok nodes) {opened : List Construct}
    {offset : Nat} (hlaid : Laid text opened offset (argumentTokens arguments)) :
    ∀ node ∈ nodes, node.Everywhere (WellPlaced file text scanned) := by
  cases arguments with
  | nil =>
      rw [buildExpressions] at hbuild
      cases hbuild
      nofun
  | cons argument rest =>
      obtain ⟨node, others, hnode, hothers, rfl⟩ := exists_of_buildExpressions_cons hbuild
      rw [argumentTokens] at hlaid
      obtain ⟨hfirst, hrest⟩ := laid_append.1 hlaid
      exact List.forall_mem_cons.2 ⟨Expression.everywhere_build hnode hfirst,
        everywhere_buildExpressions hothers hrest⟩
termination_by structural arguments

theorem Pair.everywhere_build {pair : Pair} {node : Node} (hbuild : pair.build file = .ok node)
    {opened : List Construct} {offset : Nat} (hlaid : Laid text opened offset pair.tokens) :
    node.Everywhere (WellPlaced file text scanned) := by
  have hcovers := Pair.covers_build hbuild
  cases pair with
  | mk key value =>
      obtain ⟨valueNode, hvalue, rfl⟩ := Pair.exists_of_build hbuild
      rw [Pair.tokens] at hlaid hcovers
      have hspread := (Expression.covers_build hvalue).spread.after [⟨.hashKey, key⟩]
      refine .intro (.of_arranged hlaid hcovers (List.forall_mem_singleton.2 (.inl hspread)) ?_
        trivial) ?_
      · rintro child ⟨hhash⟩
        cases hhash
      · exact List.forall_mem_singleton.2 (Expression.everywhere_build hvalue hlaid.2.2.2)
termination_by structural pair

theorem everywhere_buildPairs {pairs : List Pair} {nodes : List Node}
    (hbuild : buildPairs file pairs = .ok nodes) {opened : List Construct} {offset : Nat}
    (hlaid : Laid text opened offset (pairTokens pairs)) :
    ∀ node ∈ nodes, node.Everywhere (WellPlaced file text scanned) := by
  cases pairs with
  | nil =>
      rw [buildPairs] at hbuild
      cases hbuild
      nofun
  | cons pair rest =>
      obtain ⟨node, others, hnode, hothers, rfl⟩ := exists_of_buildPairs_cons hbuild
      rw [pairTokens] at hlaid
      obtain ⟨hfirst, hrest⟩ := laid_append.1 hlaid
      exact List.forall_mem_cons.2 ⟨Pair.everywhere_build hnode hfirst,
        everywhere_buildPairs hothers hrest⟩
termination_by structural pairs

end

/-! ## Tags -/

/-- What is built from phrases one by one is spread over their tokens, if what is built
from each of them covers its own. -/
theorem spread_mapM {α : Type} {build : α → Except BuildError Node} {tokens : α → List Token}
    (hcovers : ∀ phrase node, build phrase = .ok node → Covers file (tokens phrase) node)
    {phrases : List α} {nodes : List Node} (h : phrases.mapM build = .ok nodes) :
    Spread file (phrases.flatMap tokens) nodes := by
  induction phrases generalizing nodes with
  | nil =>
      cases h
      exact .nil _
  | cons phrase rest ih =>
      obtain ⟨node, others, hnode, hothers, rfl⟩ := exists_of_mapM_cons h
      rw [List.flatMap_cons]
      exact (hcovers phrase node hnode).spread.append (ih hothers)

/-- What holds of whatever is built from a phrase holds of all that is built from
phrases one by one. -/
theorem forall_of_mapM {α β : Type} {build : α → Except BuildError β} {tokens : α → List Token}
    {property : β → Prop}
    (hbuilt : ∀ phrase built, build phrase = .ok built → ∀ {opened : List Construct}
      {offset : Nat}, Laid text opened offset (tokens phrase) → property built)
    {phrases : List α} {results : List β} (h : phrases.mapM build = .ok results)
    {opened : List Construct} {offset : Nat}
    (hlaid : Laid text opened offset (phrases.flatMap tokens)) :
    ∀ built ∈ results, property built := by
  induction phrases generalizing results opened offset with
  | nil =>
      cases h
      nofun
  | cons phrase rest ih =>
      obtain ⟨built, others, hphrase, hothers, rfl⟩ := exists_of_mapM_cons h
      rw [List.flatMap_cons] at hlaid
      obtain ⟨hfirst, hrest⟩ := laid_append.1 hlaid
      exact List.forall_mem_cons.2 ⟨hbuilt phrase built hphrase hfirst, ih hothers hrest⟩

theorem Mustache.covers_build {mustache : Mustache} {node : Node}
    (h : mustache.build file = .ok node) : Covers file mustache.tokens node := by
  obtain ⟨invoked, -, rfl⟩ := Mustache.exists_of_build h
  exact ⟨mustache.span, mustache.tokensSpan?_tokens, rfl⟩

theorem Mustache.everywhere_build {mustache : Mustache} {node : Node}
    (hbuild : mustache.build file = .ok node) {opened : List Construct} {offset : Nat}
    (hlaid : Laid text opened offset mustache.tokens) :
    node.Everywhere (WellPlaced file text scanned) := by
  have hcovers := Mustache.covers_build hbuild
  obtain ⟨invoked, hinvoked, rfl⟩ := Mustache.exists_of_build hbuild
  have hover := (Call.over_build hinvoked).append
    [⟨if mustache.trusting then .openTriple else .openCurly, mustache.opening⟩]
    [⟨if mustache.trusting then .closeTriple else .closeCurly, mustache.closing⟩]
  refine everywhere_invocation hlaid hcovers hover ?_
  obtain ⟨hcall, -⟩ := laid_append.1 hlaid
  exact Call.everywhere_build hinvoked hcall.2.2.2

theorem QuotedPart.covers_build {part : QuotedPart} {node : Node}
    (h : part.build file = .ok node) : Covers file part.tokens node := by
  cases part with
  | text lexeme =>
      cases h
      exact ⟨lexeme.span, rfl, rfl⟩
  | mustache curly => exact Mustache.covers_build h

theorem QuotedPart.everywhere_build {part : QuotedPart} {node : Node}
    (hbuild : part.build file = .ok node) {opened : List Construct} {offset : Nat}
    (hlaid : Laid text opened offset part.tokens) :
    node.Everywhere (WellPlaced file text scanned) := by
  have hcovers := QuotedPart.covers_build hbuild
  cases part with
  | text lexeme =>
      cases hbuild
      exact everywhere_leaf hlaid hcovers rfl nofun trivial
  | mustache curly => exact Mustache.everywhere_build hbuild hlaid

theorem Value.covers_build {value : Value} {node : Node} (h : value.build file = .ok node) :
    Covers file value.tokens node := by
  refine ⟨value.span, value.tokensSpan?_tokens, ?_⟩
  cases value with
  | text lexeme =>
      cases h
      rfl
  | mustache curly =>
      obtain ⟨invoked, -, rfl⟩ := Mustache.exists_of_build h
      rfl
  | quoted opening parts closing =>
      obtain ⟨nodes, -, ⟨texts, -, rfl⟩ | ⟨-, rfl⟩⟩ := Value.exists_of_build_quoted h
      · rfl
      · rfl

/-- What a value of an attribute is built to is well placed at every depth. -/
theorem Value.everywhere_build {value : Value} {node : Node}
    (hbuild : value.build file = .ok node) {opened : List Construct} {offset : Nat}
    (hlaid : Laid text opened offset value.tokens) :
    node.Everywhere (WellPlaced file text scanned) := by
  have hcovers := Value.covers_build hbuild
  cases value with
  | text lexeme =>
      cases hbuild
      exact everywhere_leaf hlaid hcovers rfl nofun trivial
  | mustache curly => exact Mustache.everywhere_build hbuild hlaid
  | quoted opening parts closing =>
      obtain ⟨nodes, hnodes, ⟨texts, -, rfl⟩ | ⟨-, rfl⟩⟩ := Value.exists_of_build_quoted hbuild
      · exact everywhere_leaf hlaid hcovers rfl nofun trivial
      · have hspread := (spread_mapM (fun _ _ => QuotedPart.covers_build) hnodes).after
          [⟨.quoteOpen, opening⟩] |>.before [⟨.quoteClose, closing⟩]
        refine .intro (.of_arranged hlaid hcovers (List.forall_mem_singleton.2 (.inl hspread)) ?_
          trivial) ?_
        · rintro child ⟨hhash⟩
          cases hhash
        · obtain ⟨hparts, -⟩ := laid_append.1 hlaid
          intro child hmem
          refine forall_of_mapM (fun _ _ => QuotedPart.everywhere_build) hnodes hparts.2.2.2
            child ?_
          simpa [children, childLists] using hmem

/-- The node that a part of a tag adds. -/
def BuiltPart.node? : BuiltPart → Option Node
  | .attribute node | .modifier node => some node
  | .params _ | .nothing => none

theorem tokensSpan?_attribute (name equals : Lexeme) (value : Value) :
    tokensSpan? (TagPart.attribute name equals value).tokens =
      some (name.span.cover value.span) :=
  tokensSpan?_eq (StartsAt.cons _ _) (StopsAt.cons _ (StopsAt.cons _ value.stopsAt_tokens))

theorem TagPart.covers_build {part : TagPart} {built : BuiltPart}
    (h : part.build file = .ok built) {node : Node} (hnode : built.node? = some node) :
    Covers file part.tokens node := by
  cases part with
  | flag name =>
      cases h
      cases hnode
      exact ⟨name.span, rfl, rfl⟩
  | «attribute» name equals value =>
      obtain ⟨valueNode, -, rfl⟩ := TagPart.exists_of_build_attribute h
      cases hnode
      exact ⟨_, tokensSpan?_attribute name equals value, rfl⟩
  | modifier opening call closing =>
      obtain ⟨invoked, -, rfl⟩ := TagPart.exists_of_build_modifier h
      cases hnode
      exact ⟨opening.span.cover closing.span, tokensSpan?_eq (StartsAt.cons _ _)
        (StopsAt.append _ (StopsAt.singleton _)), rfl⟩
  | params lexeme =>
      cases h
      cases hnode
  | comment lexeme =>
      cases h
      cases hnode

/-- The attributes of a tag, like its modifiers, are spread over its parts. -/
theorem spread_filterMap {pick : BuiltPart → Option Node}
    (hpick : ∀ {built node}, pick built = some node → built.node? = some node)
    {parts : List TagPart} {built : List BuiltPart}
    (h : parts.mapM (TagPart.build file) = .ok built) :
    Spread file (parts.flatMap TagPart.tokens) (built.filterMap pick) := by
  induction parts generalizing built with
  | nil =>
      cases h
      exact .nil _
  | cons part rest ih =>
      obtain ⟨first, others, hfirst, hothers, rfl⟩ := exists_of_mapM_cons h
      rw [List.flatMap_cons, List.filterMap_cons]
      cases hnode : pick first with
      | none => exact (ih hothers).after _
      | some node =>
          exact (TagPart.covers_build hfirst (hpick hnode)).spread.append (ih hothers)

theorem length_slice {start stop : Nat} (h : stop ≤ text.length) :
    (slice text start stop).length = stop - start := by
  rw [slice, List.length_take, List.length_drop]
  omega

/-- The name of an attribute is written as it is. -/
theorem slice_attributeName {name : Lexeme} (h : Located text ⟨.attributeName, name⟩) :
    slice text name.span.start.offset name.span.stop.offset = name.value.toList :=
  h.placed.written

/-- An attribute with a value is longer than its name. -/
theorem not_omits_attribute {opened : List Construct} {offset : Nat} {name equals : Lexeme}
    {value : Value} {valueNode child : Node}
    (hlaid : Laid text opened offset (TagPart.attribute name equals value).tokens) :
    ¬ Omits text (.attribute (some ((name.span.cover value.span).inFile file)) name.value
      valueNode) child := by
  intro homits
  cases homits with
  | pairs hhash => cases hhash
  | value hslice =>
      have hlocated := hlaid.located ⟨.attributeName, name⟩ List.mem_cons_self
      obtain ⟨last, hlast, hstop⟩ := StopsAt.cons ⟨.equals, equals⟩ value.stopsAt_tokens
      have hend := hlaid.located last (List.mem_cons_of_mem _ (List.mem_of_getLast? hlast))
      -- the equals sign stands between the name and the end of the value
      have hequals := hlaid.2.2.2.start_lt_stopAfter
      rw [stopAfter_of_getLast hlast] at hequals
      have hsame : slice text (Token.mk .attributeName name).start last.stop =
          slice text (Token.mk .attributeName name).start (Token.mk .attributeName name).stop := by
        rw [show last.stop = value.span.stop.offset from congrArg Point.offset hstop]
        exact hslice.trans (slice_attributeName hlocated).symm
      have hlength := congrArg List.length hsame
      rw [length_slice hend.placed.stop_le, length_slice hlocated.placed.stop_le] at hlength
      have hname := hlocated.placed.start_lt
      omega

theorem TagPart.everywhere_build {part : TagPart} {built : BuiltPart}
    (hbuild : part.build file = .ok built) {opened : List Construct} {offset : Nat}
    (hlaid : Laid text opened offset part.tokens) :
    ∀ node ∈ built.node?, node.Everywhere (WellPlaced file text scanned) := by
  intro node hnode
  have hcovers := TagPart.covers_build hbuild hnode
  cases part with
  | flag name =>
      cases hbuild
      cases hnode
      have hslice := slice_attributeName (hlaid.located _ List.mem_cons_self)
      refine .intro (.of_arranged hlaid hcovers (List.forall_mem_singleton.2
        (.inr ⟨_, rfl, rfl, .value hslice⟩)) ?_ trivial) (List.forall_mem_singleton.2 ?_)
      · intro child homits
        cases homits with
        | pairs hhash => cases hhash
        | value => rfl
      · exact .intro (.of_bare rfl nofun trivial) nofun
  | «attribute» name equals value =>
      obtain ⟨valueNode, hvalue, rfl⟩ := TagPart.exists_of_build_attribute hbuild
      cases hnode
      have hspread := (Value.covers_build hvalue).spread.after
        [⟨.attributeName, name⟩, ⟨.equals, equals⟩]
      refine .intro (.of_arranged hlaid hcovers (List.forall_mem_singleton.2 (.inl hspread)) ?_
        trivial) (List.forall_mem_singleton.2 ?_)
      · exact fun child homits => absurd homits (not_omits_attribute hlaid)
      · exact Value.everywhere_build hvalue hlaid.2.2.2.2.2.2
  | modifier opening call closing =>
      obtain ⟨invoked, hinvoked, rfl⟩ := TagPart.exists_of_build_modifier hbuild
      cases hnode
      have hover := (Call.over_build hinvoked).append [⟨.openCurly, opening⟩]
        [⟨.closeCurly, closing⟩]
      refine everywhere_invocation hlaid hcovers hover ?_
      obtain ⟨hcall, -⟩ := laid_append.1 hlaid
      exact Call.everywhere_build hinvoked hcall.2.2.2
  | params lexeme =>
      cases hbuild
      cases hnode
  | comment lexeme =>
      cases hbuild
      cases hnode

end Phrase

end TemplateUsage
