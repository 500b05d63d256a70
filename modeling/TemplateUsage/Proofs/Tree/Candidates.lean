import TemplateUsage.Proofs.Scoping
import TemplateUsage.Proofs.Tree.Positions
import TemplateUsage.Proofs.Tree.Shape

set_option autoImplicit false

/-!
# Where the candidates of a tree are written

Each candidate of a tree is written by a stretch of tokens: those of the node it is. The
stretch begins with the token that opens the node, and the name of the candidate is the
value of this token, for a tag, or of the next one. The candidates follow each other as
the tokens that open them do, but for those in the attributes of a tag, which come before
those in its modifiers (`Told`). Main statement: `Template.told_parse`.
-/

namespace TemplateUsage

open Grammar Scan

/-! ## Tokens in order -/

/-- Each token stops before the later ones start. -/
def Ascends (tokens : List Token) : Prop :=
  tokens.Pairwise fun first next =>
    first.start < first.stop ∧ first.stop ≤ next.start ∧ next.start < next.stop

/-- Tokens laid out on a text ascend. -/
theorem Ascends.of_laid {text : List Char} {opened : List Construct} {offset : Nat}
    {tokens : List Token} (h : Laid text opened offset tokens) : Ascends tokens := by
  induction tokens generalizing opened offset with
  | nil => exact .nil
  | cons first rest ih =>
      obtain ⟨-, -, hfirst, hrest⟩ := h
      refine .cons (fun next hmem => ⟨hfirst.placed.start_lt, ?_, ?_⟩) (ih hrest)
      · exact hrest.pairwise.1 next hmem
      · exact (hrest.located next hmem).placed.start_lt

theorem Ascends.append {front back : List Token} (h : Ascends (front ++ back)) :
    Ascends front ∧ Ascends back := by
  obtain ⟨hfront, hback, -⟩ := List.pairwise_append.1 h
  exact ⟨hfront, hback⟩

theorem Ascends.tail {first : Token} {rest : List Token} (h : Ascends (first :: rest)) :
    Ascends rest :=
  List.Pairwise.tail h

/-- Of a stretch of tokens the first starts no earlier and the last stops no later. -/
theorem Ascends.bounds {tokens own : List Token} (h : Ascends tokens) (hown : own <:+: tokens)
    {first last opening closing : Token} (hfirst : tokens.head? = some first)
    (hlast : tokens.getLast? = some last) (hopening : own.head? = some opening)
    (hclosing : own.getLast? = some closing) :
    first.start ≤ opening.start ∧ closing.stop ≤ last.stop := by
  constructor
  · obtain ⟨rest, rfl⟩ := List.head?_eq_some_iff.1 hfirst
    rcases List.mem_cons.1 (hown.subset (List.mem_of_head? hopening)) with rfl | hmem
    · exact Nat.le_refl _
    · have hapart := (List.pairwise_cons.1 h).1 opening hmem
      omega
  · obtain ⟨front, rfl⟩ := List.getLast?_eq_some_iff.1 hlast
    rcases List.mem_append.1 (hown.subset (List.mem_of_getLast? hclosing)) with hmem | hmem
    · have hapart := (List.pairwise_append.1 h).2.2 closing hmem last List.mem_cons_self
      omega
    · rw [List.mem_singleton.1 hmem]

/-! ## The candidates of a tree -/

namespace Node

/-- The candidates of a tree in pre-order. -/
def candidates (node : Node) : List Candidate := node.sites.map Site.candidate

/-- The candidate that a callee makes of what calls it. -/
def calleeCandidate? (callee : Node) (form : UsageSite) (location : Option Location) :
    Option Candidate :=
  match callee with
  | .path _ original => some ⟨original, .curlyPath, form, location⟩
  | _ => none

/-- The candidates of a list of nodes are those of each node in turn. -/
theorem candidates_sitesOfAll (nodes : List Node) :
    (sitesOfAll nodes).map Site.candidate = nodes.flatMap candidates := by
  induction nodes with
  | nil => rfl
  | cons node nodes ih =>
      rw [sitesOfAll, List.map_append, ih, List.flatMap_cons]
      rfl

theorem candidates_sitesOfOption (inverse : Option Node) :
    (sitesOfOption inverse).map Site.candidate = inverse.toList.flatMap candidates := by
  cases inverse with
  | none => rfl
  | some node =>
      rw [sitesOfOption, Option.toList_some, List.flatMap_singleton]
      rfl

theorem candidate_under (names : List String) (sites : List Site) :
    (sites.map (Site.under names)).map Site.candidate = sites.map Site.candidate := by
  rw [List.map_map]
  rfl

/-- A node has at most one candidate of its own. -/
theorem candidate_ownSite (node : Node) :
    node.ownSite.map Site.candidate = node.candidate?.toList := by
  rw [ownSite, List.map_map]
  exact List.map_id _

section Candidates

variable (location : Option Location)

@[simp] theorem candidates_template (statements : List Node) :
    (template location statements).candidates = statements.flatMap candidates := by
  rw [candidates, sites, candidates_sitesOfAll]

@[simp] theorem candidates_element (tag : String) (attributes modifiers : List Node)
    (params : List String) (members : List Node) (selfClosing : Bool) :
    (element location tag attributes modifiers params members selfClosing).candidates =
      ⟨tag, .tagName, .element, location⟩ ::
        (attributes.flatMap candidates ++ modifiers.flatMap candidates ++
          members.flatMap candidates) := by
  rw [candidates, sites, List.map_append, List.map_append, List.map_append, candidate_ownSite,
    candidate_under, candidates_sitesOfAll, candidates_sitesOfAll, candidates_sitesOfAll]
  rfl

@[simp] theorem candidates_attribute (name : String) (value : Node) :
    (Node.attribute location name value).candidates = value.candidates := by
  rw [candidates, sites]
  rfl

@[simp] theorem candidates_concat (parts : List Node) :
    (concat location parts).candidates = parts.flatMap candidates := by
  rw [candidates, sites, candidates_sitesOfAll]

@[simp] theorem candidates_invocation (form : InvocationForm) (callee : Node)
    (params : List Node) (named : Node) :
    (invocation location form callee params named).candidates =
      (calleeCandidate? callee form.site location).toList ++
        (callee.candidates ++ params.flatMap candidates ++ named.candidates) := by
  have hown : (invocation location form callee params named).candidate? =
      calleeCandidate? callee form.site location := by cases callee <;> rfl
  rw [candidates, sites, List.map_append, List.map_append, List.map_append, candidate_ownSite,
    hown, candidates_sitesOfAll, List.append_assoc, List.append_assoc, List.append_assoc]
  rfl

@[simp] theorem candidates_block (callee : Node) (params : List Node) (named program : Node)
    (inverse : Option Node) :
    (block location callee params named program inverse).candidates =
      (calleeCandidate? callee .block location).toList ++
        (callee.candidates ++ params.flatMap candidates ++ named.candidates) ++
        (program.candidates ++ inverse.toList.flatMap candidates) := by
  have hown : (block location callee params named program inverse).candidate? =
      calleeCandidate? callee .block location := by cases callee <;> rfl
  rw [candidates, sites, List.map_append, List.map_append, List.map_append, List.map_append,
    List.map_append, candidate_ownSite, hown, candidates_sitesOfAll, candidates_sitesOfOption]
  simp only [List.append_assoc]
  rfl

@[simp] theorem candidates_body (params : List String) (statements : List Node)
    (chained : Bool) :
    (body location params statements chained).candidates = statements.flatMap candidates := by
  rw [candidates, sites, candidate_under, candidates_sitesOfAll]

@[simp] theorem candidates_hash (pairs : List Node) :
    (hash location pairs).candidates = pairs.flatMap candidates := by
  rw [candidates, sites, candidates_sitesOfAll]

@[simp] theorem candidates_pair (key : String) (value : Node) :
    (pair location key value).candidates = value.candidates := by
  rw [candidates, sites]
  rfl

@[simp] theorem candidates_path (original : String) : (path location original).candidates = [] := by
  rw [candidates, sites, List.map_nil]

@[simp] theorem candidates_literal (value : Literal) :
    (literal location value).candidates = [] := by
  rw [candidates, sites, List.map_nil]

@[simp] theorem candidates_text (chars : String) : (text location chars).candidates = [] := by
  rw [candidates, sites, List.map_nil]

@[simp] theorem candidates_htmlComment (value : String) :
    (htmlComment location value).candidates = [] := by
  rw [candidates, sites, List.map_nil]

@[simp] theorem candidates_curlyComment (value : String) :
    (curlyComment location value).candidates = [] := by
  rw [candidates, sites, List.map_nil]

end Candidates

end Node

/-! ## Written candidates -/

/-- The kinds of token that open what a usage is written as. -/
def UsageSite.openers : UsageSite → List Kind
  | .element => [.startTag]
  | .mustache => [.openCurly, .openTriple]
  | .subExpression => [.openParen]
  | .modifier => [.openCurly]
  | .block => [.openBlock, .openElse]

/-- The tokens begin with the name of the candidate, as it is written in its form. -/
inductive Candidate.Begins : Candidate → List Token → Prop where
  | tag {name : Lexeme} {location : Option Location} {rest : List Token} :
      Begins ⟨name.value, .tagName, .element, location⟩ (⟨.startTag, name⟩ :: rest)
  | call {kind : Kind} {opening name : Lexeme} {next : Token} {form : UsageSite}
      {location : Option Location} {rest : List Token} : form ≠ .element → kind ∈ form.openers →
      Begins ⟨name.value, .curlyPath, form, location⟩
        (⟨kind, opening⟩ :: ⟨.path, name⟩ :: next :: rest)

/-- Some stretch of the tokens begins with the name of the candidate, and the candidate
is located by it. -/
def Candidate.WrittenIn (file : String) (tokens : List Token) (candidate : Candidate) : Prop :=
  ∃ own, own <:+: tokens ∧ candidate.Begins own ∧ candidate.location = tokensLocation? file own

section

variable {file : String} {tokens : List Token} {candidate : Candidate}

/-- What is written in a stretch of the tokens is written in the tokens. -/
theorem Candidate.WrittenIn.of_isInfix {stretch : List Token}
    (h : candidate.WrittenIn file stretch) (hstretch : stretch <:+: tokens) :
    candidate.WrittenIn file tokens := by
  obtain ⟨own, hown, hbegins⟩ := h
  exact ⟨own, hown.trans hstretch, hbegins⟩

theorem Candidate.Begins.ne_nil (h : candidate.Begins tokens) : tokens ≠ [] := by
  cases h <;> exact List.cons_ne_nil _ _

/-- A candidate starts with the first and stops with the last of its tokens. -/
theorem Candidate.Begins.exists_location (hbegins : candidate.Begins tokens)
    (hlocation : candidate.location = tokensLocation? file tokens) :
    ∃ opening closing, tokens.head? = some opening ∧ tokens.getLast? = some closing ∧
      ∃ location ∈ candidate.location,
        location.start = opening.start ∧ location.stop = closing.stop := by
  have hopening := List.head?_eq_some_head hbegins.ne_nil
  have hclosing := List.getLast?_eq_some_getLast hbegins.ne_nil
  generalize tokens.head _ = opening at hopening
  generalize tokens.getLast _ = closing at hclosing
  refine ⟨opening, closing, hopening, hclosing,
    Span.inFile file (opening.lexeme.span.cover closing.lexeme.span), ?_, rfl, rfl⟩
  rw [hlocation, tokensLocation?, tokensSpan?, Phrase.listSpan?, hopening, hclosing]
  rfl

/-- A candidate is located from the token that opens it. -/
theorem Candidate.WrittenIn.exists_opening (h : candidate.WrittenIn file tokens) :
    ∃ opening ∈ tokens, ∃ location ∈ candidate.location, location.start = opening.start := by
  obtain ⟨own, hown, hbegins, hlocation⟩ := h
  obtain ⟨opening, -, hopening, -, location, hmem, hstart, -⟩ :=
    hbegins.exists_location hlocation
  exact ⟨opening, hown.subset (List.mem_of_head? hopening), location, hmem, hstart⟩

end

/-! ## The order of the candidates -/

/-- The first location lies in the second. -/
def Location.Inside (inner outer : Location) : Prop :=
  outer.start ≤ inner.start ∧ inner.stop ≤ outer.stop

/-- A location in the value of an attribute and one in a modifier of the same opening
tag. -/
def Node.SharesTag (root : Node) (first second : Location) : Prop :=
  ∃ location tag attributes modifiers params members selfClosing place name value modifier,
    root.Within (.element location tag attributes modifiers params members selfClosing) ∧
    Node.attribute place name value ∈ attributes ∧ modifier ∈ modifiers ∧
    (∃ outer ∈ value.location?, first.Inside outer) ∧
    ∃ outer ∈ modifier.location?, second.Inside outer

/-- The order of locations in a tree: one starts before the other, unless one is in an
attribute and the other in a modifier of the same tag. -/
def Node.Orders (root : Node) (first second : Option Location) : Prop :=
  ∃ here ∈ first, ∃ there ∈ second, here.start ≠ there.start ∧
    (here.start < there.start ∨ root.SharesTag here there)

/-- The candidates are written in the tokens, in the order of the tree. -/
structure Told (file : String) (root : Node) (tokens : List Token)
    (candidates : List Candidate) : Prop where
  written : ∀ candidate ∈ candidates, candidate.WrittenIn file tokens
  ordered : candidates.Pairwise fun first second => root.Orders first.location second.location

section Told

variable {file : String} {root : Node} {tokens front back : List Token}
  {first second : List Candidate}

theorem told_nil (file : String) (root : Node) (tokens : List Token) : Told file root tokens [] :=
  ⟨nofun, .nil⟩

theorem Told.of_isInfix {stretch : List Token} (h : Told file root stretch first)
    (hstretch : stretch <:+: tokens) : Told file root tokens first :=
  ⟨fun candidate hmem => (h.written candidate hmem).of_isInfix hstretch, h.ordered⟩

theorem Told.after (h : Told file root tokens first) (front : List Token) :
    Told file root (front ++ tokens) first :=
  h.of_isInfix (List.suffix_append front tokens).isInfix

theorem Told.before (h : Told file root tokens first) (back : List Token) :
    Told file root (tokens ++ back) first :=
  h.of_isInfix (List.prefix_append tokens back).isInfix

theorem Told.left (h : Told file root tokens (first ++ second)) : Told file root tokens first :=
  ⟨(List.forall_mem_append.1 h.written).1, (List.pairwise_append.1 h.ordered).1⟩

theorem Told.right (h : Told file root tokens (first ++ second)) : Told file root tokens second :=
  ⟨(List.forall_mem_append.1 h.written).2, (List.pairwise_append.1 h.ordered).2.1⟩

/-- What is written in the earlier tokens starts earlier. -/
theorem start_lt_of_writtenIn {one other : Candidate} (hascends : Ascends (front ++ back))
    (hone : one.WrittenIn file front) (hother : other.WrittenIn file back) :
    ∃ here ∈ one.location, ∃ there ∈ other.location, here.start < there.start := by
  obtain ⟨opening, hopening, here, hhere, hstart⟩ := hone.exists_opening
  obtain ⟨next, hnext, there, hthere, hnextStart⟩ := hother.exists_opening
  have hapart := (List.pairwise_append.1 hascends).2.2 opening hopening next hnext
  exact ⟨here, hhere, there, hthere, by omega⟩

/-- Candidates told of one stretch and then of the next are told of both together. -/
theorem Told.append (hfirst : Told file root front first) (hsecond : Told file root back second)
    (hascends : Ascends (front ++ back)) : Told file root (front ++ back) (first ++ second) where
  written := List.forall_mem_append.2 ⟨(hfirst.before back).written, (hsecond.after front).written⟩
  ordered := by
    refine List.pairwise_append.2 ⟨hfirst.ordered, hsecond.ordered, fun one hone other hother => ?_⟩
    obtain ⟨here, hhere, there, hthere, hlt⟩ := start_lt_of_writtenIn hascends
      (hfirst.written one hone) (hsecond.written other hother)
    exact ⟨here, hhere, there, hthere, Int.ne_of_lt hlt, .inl hlt⟩

/-- A candidate comes before those that are written after its first token. -/
theorem Told.own {opening : Token} {candidate : Candidate} (h : Told file root tokens first)
    (hascends : Ascends (opening :: tokens)) (hbegins : candidate.Begins (opening :: tokens))
    (hlocation : candidate.location = tokensLocation? file (opening :: tokens)) :
    Told file root (opening :: tokens) (candidate :: first) := by
  have hwritten : candidate.WrittenIn file (opening :: tokens) :=
    ⟨_, List.infix_rfl, hbegins, hlocation⟩
  refine ⟨List.forall_mem_cons.2 ⟨hwritten, (h.after [opening]).written⟩, .cons ?_ h.ordered⟩
  intro other hother
  obtain ⟨next, hnext, there, hthere, hnextStart⟩ := (h.written other hother).exists_opening
  obtain ⟨_, -, hopening, -, here, hhere, hstart, -⟩ := hbegins.exists_location hlocation
  obtain rfl := Option.some.inj hopening
  have hapart := (List.pairwise_cons.1 hascends).1 next hnext
  exact ⟨here, hhere, there, hthere, by omega, .inl (by omega)⟩

theorem Covers.location_eq {node : Node} (h : Covers file tokens node) :
    node.location? = tokensLocation? file tokens := by
  obtain ⟨span, hspan, hlocation⟩ := h
  rw [hlocation, tokensLocation?, hspan]
  rfl

/-- A candidate lies inside a node that covers the tokens it is written in. -/
theorem Candidate.WrittenIn.inside {candidate : Candidate} {node : Node}
    (h : candidate.WrittenIn file tokens) (hascends : Ascends tokens)
    (hcovers : Covers file tokens node) :
    ∀ location ∈ candidate.location, ∃ outer ∈ node.location?, location.Inside outer := by
  obtain ⟨own, hown, hbegins, hlocation⟩ := h
  obtain ⟨opening, closing, hopening, hclosing, place, hplace, hstart, hstop⟩ :=
    hbegins.exists_location hlocation
  obtain ⟨span, hspan, houter⟩ := hcovers
  have hne : tokens ≠ [] := by
    rintro rfl
    cases hspan
  have hfirst := List.head?_eq_some_head hne
  have hlast := List.getLast?_eq_some_getLast hne
  generalize tokens.head _ = first at hfirst
  generalize tokens.getLast _ = last at hlast
  rw [tokensSpan?, Phrase.listSpan?, hfirst, hlast] at hspan
  obtain rfl := Option.some.inj hspan
  intro location hmem
  obtain rfl := Option.mem_unique hmem hplace
  refine ⟨_, houter, ?_⟩
  obtain ⟨hbefore, hafter⟩ := hascends.bounds hown hfirst hlast hopening hclosing
  constructor
  · rw [hstart]
    exact Int.ofNat_le.2 hbefore
  · rw [hstop]
    exact Int.ofNat_le.2 hafter

end Told

namespace Phrase

open Node

variable {file : String} {root : Node}

/-! ## Calls -/

/-- The candidates in the nodes of a call. -/
def Invoked.candidates (invoked : Invoked) : List Candidate :=
  invoked.callee.candidates ++ invoked.params.flatMap Node.candidates ++ invoked.hash.candidates

/-- A callee that is a path is the first token of the call. -/
theorem Call.tokens_of_path {call : Call} {invoked : Invoked} {location : Option Location}
    {original : String} (h : call.build file = .ok invoked)
    (hcallee : invoked.callee = .path location original) :
    ∃ name rest, call.tokens = ⟨.path, name⟩ :: rest ∧ original = name.value := by
  cases call with
  | mk callee arguments pairs =>
      obtain ⟨calleeNode, params, pairNodes, hbuild, -, -, rfl⟩ := Call.exists_of_build h
      dsimp only at hcallee
      subst hcallee
      cases callee with
      | atom sort lexeme =>
          obtain ⟨value, -, ⟨⟩⟩ | ⟨name, hread, ⟨⟩⟩ := Expression.of_build_atom hbuild
          obtain rfl := eq_path_of_read hread
          rw [Call.tokens, Expression.tokens]
          exact ⟨lexeme, _, rfl, rfl⟩
      | nested opening inner closing =>
          obtain ⟨inner, -, ⟨⟩⟩ := Expression.exists_of_build_nested hbuild

/-- A call between a token that opens it and the tokens that follow it, with what is
written in these. -/
theorem told_call {kind : Kind} {opening : Lexeme} {call : Call} {invoked : Invoked}
    {form : UsageSite} {location : Option Location} {back : List Token}
    {others : List Candidate} (hform : form ≠ .element) (hkind : kind ∈ form.openers)
    (hinvoked : call.build file = .ok invoked)
    (hcall : Told file root call.tokens invoked.candidates)
    (hback : Told file root back others) (hne : back ≠ [])
    (hascends : Ascends (⟨kind, opening⟩ :: (call.tokens ++ back)))
    (hlocation : location = tokensLocation? file (⟨kind, opening⟩ :: (call.tokens ++ back))) :
    Told file root (⟨kind, opening⟩ :: (call.tokens ++ back))
      ((calleeCandidate? invoked.callee form location).toList ++ invoked.candidates ++ others) := by
  have htold := hcall.append hback hascends.tail
  rw [List.append_assoc]
  cases hcandidate : calleeCandidate? invoked.callee form location with
  | none => exact htold.after [⟨kind, opening⟩]
  | some candidate =>
      unfold calleeCandidate? at hcandidate
      split at hcandidate
      · rename_i hcallee
        obtain ⟨name, rest, htokens, rfl⟩ := Call.tokens_of_path hinvoked hcallee
        cases hcandidate
        obtain ⟨next, more, hmore⟩ := List.exists_cons_of_ne_nil
          (List.append_ne_nil_of_right_ne_nil rest hne)
        refine htold.own hascends ?_ hlocation
        rw [htokens, List.cons_append, hmore]
        exact .call hform hkind
      · cases hcandidate

/-- An invocation between the tokens that open and close it. -/
theorem told_invocation {kind : Kind} {opening : Lexeme} {call : Call} {closing : Token}
    {invoked : Invoked} {form : InvocationForm} {location : Option Location}
    (hkind : kind ∈ form.site.openers) (hinvoked : call.build file = .ok invoked)
    (hcall : Told file root call.tokens invoked.candidates)
    (hascends : Ascends (⟨kind, opening⟩ :: call.tokens ++ [closing]))
    (hcovers : Covers file (⟨kind, opening⟩ :: call.tokens ++ [closing])
      (.invocation location form invoked.callee invoked.params invoked.hash)) :
    Told file root (⟨kind, opening⟩ :: call.tokens ++ [closing])
      (Node.invocation location form invoked.callee invoked.params invoked.hash).candidates := by
  have hform : form.site ≠ .element := by cases form <;> nofun
  have htold := told_call hform hkind hinvoked hcall (told_nil file root [closing])
    (List.cons_ne_nil _ _) hascends hcovers.location_eq
  rw [List.append_nil] at htold
  rw [candidates_invocation]
  exact htold

mutual

/-- The candidates of an expression are told by its tokens. Calls and pairs hold expressions,
so this goes with the same of them. -/
theorem Expression.told_build {expression : Expression} {node : Node}
    (hbuild : expression.build file = .ok node) (hascends : Ascends expression.tokens) :
    Told file root expression.tokens node.candidates := by
  have hcovers := Expression.covers_build hbuild
  cases expression with
  | atom sort lexeme =>
      obtain ⟨value, -, rfl⟩ | ⟨name, -, rfl⟩ := Expression.of_build_atom hbuild
      · rw [candidates_literal]
        exact told_nil file root _
      · rw [candidates_path]
        exact told_nil file root _
  | nested opening call closing =>
      obtain ⟨invoked, hinvoked, rfl⟩ := Expression.exists_of_build_nested hbuild
      rw [Expression.tokens] at hascends hcovers ⊢
      exact told_invocation (by decide) hinvoked
        (Call.told_build hinvoked hascends.append.1.tail) hascends hcovers
termination_by structural expression

/-- The candidates of a call are told by its tokens. -/
theorem Call.told_build {call : Call} {invoked : Invoked}
    (hbuild : call.build file = .ok invoked) (hascends : Ascends call.tokens) :
    Told file root call.tokens invoked.candidates := by
  cases call with
  | mk callee arguments pairs =>
      obtain ⟨calleeNode, params, pairNodes, hcallee, hparams, hpairs, rfl⟩ :=
        Call.exists_of_build hbuild
      rw [Call.tokens] at hascends ⊢
      obtain ⟨hfront, hlast⟩ := hascends.append
      obtain ⟨hfirst, hmiddle⟩ := hfront.append
      rw [Invoked.candidates, candidates_hash]
      exact ((Expression.told_build hcallee hfirst).append
        (told_buildExpressions hparams hmiddle) hfront).append
        (told_buildPairs hpairs hlast) hascends
termination_by structural call

theorem told_buildExpressions {arguments : List Expression} {nodes : List Node}
    (hbuild : buildExpressions file arguments = .ok nodes)
    (hascends : Ascends (argumentTokens arguments)) :
    Told file root (argumentTokens arguments) (nodes.flatMap Node.candidates) := by
  cases arguments with
  | nil =>
      rw [buildExpressions] at hbuild
      cases hbuild
      exact told_nil file root _
  | cons argument rest =>
      obtain ⟨node, others, hnode, hothers, rfl⟩ := exists_of_buildExpressions_cons hbuild
      rw [argumentTokens] at hascends ⊢
      exact (Expression.told_build hnode hascends.append.1).append
        (told_buildExpressions hothers hascends.append.2) hascends
termination_by structural arguments

theorem Pair.told_build {pair : Pair} {node : Node} (hbuild : pair.build file = .ok node)
    (hascends : Ascends pair.tokens) : Told file root pair.tokens node.candidates := by
  cases pair with
  | mk key value =>
      obtain ⟨valueNode, hvalue, rfl⟩ := Pair.exists_of_build hbuild
      rw [Pair.tokens] at hascends ⊢
      rw [candidates_pair]
      exact (Expression.told_build hvalue hascends.tail).after [⟨.hashKey, key⟩]
termination_by structural pair

theorem told_buildPairs {pairs : List Pair} {nodes : List Node}
    (hbuild : buildPairs file pairs = .ok nodes) (hascends : Ascends (pairTokens pairs)) :
    Told file root (pairTokens pairs) (nodes.flatMap Node.candidates) := by
  cases pairs with
  | nil =>
      rw [buildPairs] at hbuild
      cases hbuild
      exact told_nil file root _
  | cons pair rest =>
      obtain ⟨node, others, hnode, hothers, rfl⟩ := exists_of_buildPairs_cons hbuild
      rw [pairTokens] at hascends ⊢
      exact (Pair.told_build hnode hascends.append.1).append
        (told_buildPairs hothers hascends.append.2) hascends
termination_by structural pairs

end

/-! ## Opening tags -/

/-- A mustache tells its own candidate and then those of its call. -/
theorem Mustache.told_build {mustache : Mustache} {node : Node}
    (hbuild : mustache.build file = .ok node) (hascends : Ascends mustache.tokens) :
    Told file root mustache.tokens node.candidates := by
  have hcovers := Mustache.covers_build hbuild
  obtain ⟨invoked, hinvoked, rfl⟩ := Mustache.exists_of_build hbuild
  have hkind : (if mustache.trusting then Kind.openTriple else .openCurly) ∈
      (InvocationForm.mustache mustache.trusting).site.openers := by
    cases mustache.trusting <;> decide
  exact told_invocation hkind hinvoked (Call.told_build hinvoked hascends.append.1.tail) hascends
    hcovers

theorem QuotedPart.told_build {part : QuotedPart} {node : Node}
    (hbuild : part.build file = .ok node) (hascends : Ascends part.tokens) :
    Told file root part.tokens node.candidates := by
  cases part with
  | text lexeme =>
      cases hbuild
      rw [candidates_text]
      exact told_nil file root _
  | mustache curly => exact Mustache.told_build hbuild hascends

theorem told_mapM_quoted {parts : List QuotedPart} {nodes : List Node}
    (hbuild : parts.mapM (QuotedPart.build file) = .ok nodes)
    (hascends : Ascends (parts.flatMap QuotedPart.tokens)) :
    Told file root (parts.flatMap QuotedPart.tokens) (nodes.flatMap Node.candidates) := by
  induction parts generalizing nodes with
  | nil =>
      cases hbuild
      exact told_nil file root _
  | cons part rest ih =>
      obtain ⟨node, others, hnode, hothers, rfl⟩ := exists_of_mapM_cons hbuild
      rw [List.flatMap_cons] at hascends ⊢
      rw [List.flatMap_cons]
      exact (QuotedPart.told_build hnode hascends.append.1).append
        (ih hothers hascends.append.2) hascends

/-- The candidates of a value are those of its mustaches, in order. -/
theorem Value.told_build {value : Value} {node : Node} (hbuild : value.build file = .ok node)
    (hascends : Ascends value.tokens) : Told file root value.tokens node.candidates := by
  cases value with
  | text lexeme =>
      cases hbuild
      rw [candidates_text]
      exact told_nil file root _
  | mustache curly => exact Mustache.told_build hbuild hascends
  | quoted opening parts closing =>
      obtain ⟨nodes, hnodes, ⟨texts, -, rfl⟩ | ⟨-, rfl⟩⟩ := Value.exists_of_build_quoted hbuild
      · rw [candidates_text]
        exact told_nil file root _
      · rw [candidates_concat]
        exact ((told_mapM_quoted hnodes hascends.append.1.tail).after
          [⟨.quoteOpen, opening⟩]).before [⟨.quoteClose, closing⟩]

/-- The candidates of a part of a tag are told by its tokens. -/
theorem TagPart.told_build {part : TagPart} {built : BuiltPart} {node : Node}
    (hbuild : part.build file = .ok built) (hnode : built.node? = some node)
    (hascends : Ascends part.tokens) : Told file root part.tokens node.candidates := by
  have hcovers := TagPart.covers_build hbuild hnode
  cases part with
  | flag name =>
      cases hbuild
      cases hnode
      rw [candidates_attribute, candidates_text]
      exact told_nil file root _
  | «attribute» name equals value =>
      obtain ⟨valueNode, hvalue, rfl⟩ := TagPart.exists_of_build_attribute hbuild
      cases hnode
      rw [candidates_attribute]
      exact (Value.told_build hvalue hascends.tail.tail).after
        [⟨.attributeName, name⟩, ⟨.equals, equals⟩]
  | modifier opening call closing =>
      obtain ⟨invoked, hinvoked, rfl⟩ := TagPart.exists_of_build_modifier hbuild
      cases hnode
      exact told_invocation (by decide) hinvoked
        (Call.told_build hinvoked hascends.append.1.tail) hascends hcovers
  | params lexeme | comment lexeme =>
      cases hbuild
      cases hnode

/-- The candidates of an attribute lie in its value. -/
theorem TagPart.inside_value {part : TagPart} {node : Node}
    (hbuild : part.build file = .ok (.attribute node)) (hascends : Ascends part.tokens) :
    ∃ place name value, node = .attribute place name value ∧
      ∀ candidate ∈ node.candidates, ∀ location ∈ candidate.location,
        ∃ outer ∈ value.location?, location.Inside outer := by
  cases part with
  | flag name =>
      cases hbuild
      exact ⟨_, _, _, rfl, by simp⟩
  | «attribute» name equals value =>
      obtain ⟨valueNode, hvalue, ⟨⟩⟩ := TagPart.exists_of_build_attribute hbuild
      refine ⟨_, _, _, rfl, fun candidate hmem => ?_⟩
      rw [candidates_attribute] at hmem
      have htold : Told file valueNode value.tokens valueNode.candidates :=
        Value.told_build hvalue hascends.tail.tail
      exact (htold.written candidate hmem).inside hascends.tail.tail (Value.covers_build hvalue)
  | modifier opening call closing =>
      obtain ⟨invoked, -, ⟨⟩⟩ := TagPart.exists_of_build_modifier hbuild
  | params lexeme | comment lexeme => cases hbuild

theorem exists_part_of_mem {parts : List TagPart} {built : List BuiltPart}
    (hbuild : parts.mapM (TagPart.build file) = .ok built)
    (hascends : Ascends (parts.flatMap TagPart.tokens)) :
    ∀ result ∈ built, ∃ part : TagPart, part.build file = .ok result ∧ Ascends part.tokens := by
  induction parts generalizing built with
  | nil =>
      cases hbuild
      nofun
  | cons part rest ih =>
      obtain ⟨first, others, hfirst, hothers, rfl⟩ := exists_of_mapM_cons hbuild
      rw [List.flatMap_cons] at hascends
      exact List.forall_mem_cons.2
        ⟨⟨part, hfirst, hascends.append.1⟩, ih hothers hascends.append.2⟩

/-- A candidate of an attribute and one of a modifier share their tag. -/
theorem sharesTag_of_parts {location : Option Location} {tag : String} {parts : List TagPart}
    {built : List BuiltPart} {params : List String} {members : List Node} {selfClosing : Bool}
    (hbuild : parts.mapM (TagPart.build file) = .ok built)
    (hascends : Ascends (parts.flatMap TagPart.tokens))
    (hwithin : root.Within (.element location tag (built.filterMap BuiltPart.attribute?)
      (built.filterMap BuiltPart.modifier?) params members selfClosing)) :
    ∀ one ∈ (built.filterMap BuiltPart.attribute?).flatMap Node.candidates,
      ∀ other ∈ (built.filterMap BuiltPart.modifier?).flatMap Node.candidates,
        ∀ here ∈ one.location, ∀ there ∈ other.location, root.SharesTag here there := by
  have hparts := exists_part_of_mem hbuild hascends
  intro one hone other hother here hhere there hthere
  obtain ⟨owner, howner, hone⟩ := List.mem_flatMap.1 hone
  obtain ⟨modifier, hmodifier, hother⟩ := List.mem_flatMap.1 hother
  obtain ⟨result, hresult, hpick⟩ := List.mem_filterMap.1 howner
  obtain ⟨next, hnext, hnextPick⟩ := List.mem_filterMap.1 hmodifier
  obtain ⟨part, hpart, hpartAscends⟩ := hparts result hresult
  obtain ⟨nextPart, hnextPart, hnextAscends⟩ := hparts next hnext
  cases result with
  | «attribute» node =>
      cases hpick
      cases next with
      | modifier node =>
          cases hnextPick
          obtain ⟨place, name, value, rfl, hinside⟩ := TagPart.inside_value hpart hpartAscends
          have htold : Told file modifier nextPart.tokens modifier.candidates :=
            TagPart.told_build hnextPart rfl hnextAscends
          refine ⟨_, _, _, _, _, _, _, place, name, value, modifier, hwithin, howner, hmodifier,
            hinside one hone here hhere, ?_⟩
          exact (htold.written other hother).inside hnextAscends
            (TagPart.covers_build hnextPart rfl) there hthere
      | _ => cases hnextPick
  | _ => cases hpick

/-- The candidates in the parts of a tag, those of its attributes first. -/
theorem told_parts {parts : List TagPart} {built : List BuiltPart}
    (hbuild : parts.mapM (TagPart.build file) = .ok built)
    (hascends : Ascends (parts.flatMap TagPart.tokens))
    (hshares : ∀ one ∈ (built.filterMap BuiltPart.attribute?).flatMap Node.candidates,
      ∀ other ∈ (built.filterMap BuiltPart.modifier?).flatMap Node.candidates,
        ∀ here ∈ one.location, ∀ there ∈ other.location, root.SharesTag here there) :
    Told file root (parts.flatMap TagPart.tokens)
      ((built.filterMap BuiltPart.attribute?).flatMap Node.candidates ++
        (built.filterMap BuiltPart.modifier?).flatMap Node.candidates) := by
  induction parts generalizing built with
  | nil =>
      cases hbuild
      exact told_nil file root _
  | cons part rest ih =>
      obtain ⟨first, others, hfirst, hothers, rfl⟩ := exists_of_mapM_cons hbuild
      rw [List.flatMap_cons] at hascends ⊢
      obtain ⟨hpart, hrest⟩ := hascends.append
      cases first with
      | «attribute» node =>
          have hnode : Told file root part.tokens node.candidates :=
            TagPart.told_build hfirst rfl hpart
          have htold := ih hothers hrest fun one hone other hother =>
            hshares one (List.mem_append_right _ hone) other hother
          have hall := hnode.append htold hascends
          rw [← List.append_assoc] at hall
          exact hall
      | modifier node =>
          have hnode : Told file root part.tokens node.candidates :=
            TagPart.told_build hfirst rfl hpart
          have htold := ih hothers hrest fun one hone other hother =>
            hshares one hone other (List.mem_append_right _ hother)
          have hlater := hnode.append htold.right hascends
          refine ⟨List.forall_mem_append.2 ⟨(htold.left.after _).written, hlater.written⟩,
            List.pairwise_append.2 ⟨htold.left.ordered, hlater.ordered, ?_⟩⟩
          intro one hone other hother
          rcases List.mem_append.1 hother with hmem | hmem
          · -- the modifier is written first, but the attributes are listed before it
            obtain ⟨there, hthere, here, hhere, hlt⟩ := start_lt_of_writtenIn hascends
              (hnode.written other hmem) (htold.left.written one hone)
            exact ⟨here, hhere, there, hthere, by omega,
              .inr (hshares one hone other hother here hhere there hthere)⟩
          · exact (List.pairwise_append.1 htold.ordered).2.2 one hone other hmem
      | params names => exact (ih hothers hrest hshares).after _
      | nothing => exact (ih hothers hrest hshares).after _

/-- An element over the tokens of its opening tag and those that follow it. -/
theorem told_elementNode {tag : Tag} {built : List BuiltPart} {members : List Node}
    {location : Location} {selfClosing : Bool} {back : List Token}
    (hbuild : tag.parts.mapM (TagPart.build file) = .ok built)
    (hback : Told file root back (members.flatMap Node.candidates))
    (hascends : Ascends (tag.tokens ++ back))
    (hcovers : Covers file (tag.tokens ++ back)
      (elementNode location tag.name.value built members selfClosing))
    (hwithin : root.Within (elementNode location tag.name.value built members selfClosing)) :
    Told file root (tag.tokens ++ back)
      (elementNode location tag.name.value built members selfClosing).candidates := by
  have hlocation : some location = tokensLocation? file (tag.tokens ++ back) :=
    hcovers.location_eq
  rw [Tag.tokens, List.cons_append] at hascends hlocation ⊢
  have hparts := told_parts hbuild hascends.tail.append.1
    (sharesTag_of_parts hbuild hascends.tail.append.1 hwithin)
  rw [elementNode, candidates_element]
  exact (hparts.append hback hascends.tail).own hascends .tag hlocation

/-! ## Sections -/

/-- A section over the tokens of its head, its program, its inverse and those that
follow them. -/
theorem told_section {kind : Kind} {head : Head} {program : List Statement}
    {inverse : Inverse} {back : List Token} {location : Option Location} {invoked : Invoked}
    {statements : List Node} {inner : Option Location} {inverseNode : Option Node}
    (hkind : kind ∈ UsageSite.block.openers) (hinvoked : head.call.build file = .ok invoked)
    (hprogram : Told file root (statementTokens program) (statements.flatMap Node.candidates))
    (hinverse : Told file root inverse.tokens (inverseNode.toList.flatMap Node.candidates))
    (hascends : Ascends
      (head.tokens kind ++ (statementTokens program ++ (inverse.tokens ++ back))))
    (hcovers : Covers file
      (head.tokens kind ++ (statementTokens program ++ (inverse.tokens ++ back)))
      (.block location invoked.callee invoked.params invoked.hash
        (.body inner head.names statements false) inverseNode)) :
    Told file root (head.tokens kind ++ (statementTokens program ++ (inverse.tokens ++ back)))
      (Node.block location invoked.callee invoked.params invoked.hash
        (.body inner head.names statements false) inverseNode).candidates := by
  have hlocation := hcovers.location_eq
  have hbodies := hprogram.append (hinverse.before back) hascends.append.2
  have hsplit : head.tokens kind ++ (statementTokens program ++ (inverse.tokens ++ back)) =
      ⟨kind, head.opening⟩ :: (head.call.tokens ++
        ((head.params.toList.map (⟨.blockParams, ·⟩) ++ [⟨.closeCurly, head.closing⟩]) ++
          (statementTokens program ++ (inverse.tokens ++ back)))) := by
    rw [Head.tokens]
    simp only [List.cons_append, List.append_assoc]
  rw [hsplit] at hascends hlocation ⊢
  rw [candidates_block, candidates_body]
  refine told_call (by decide) hkind hinvoked (Call.told_build hinvoked hascends.tail.append.1)
    (hbodies.after _) ?_ hascends hlocation
  exact List.append_ne_nil_of_left_ne_nil
    (List.append_ne_nil_of_right_ne_nil _ (List.cons_ne_nil _ _)) _

/-! ## Statements -/

/-- The statements of a section and its inverse are nodes of the tree it is in. -/
theorem within_of_section {location inner : Option Location} {callee named : Node}
    {params statements : List Node} {names : List String} {inverse : Option Node}
    (h : root.Within
      (.block location callee params named (.body inner names statements false) inverse)) :
    (∀ node ∈ statements, root.Within node) ∧ ∀ node ∈ inverse, root.Within node := by
  have hbody : root.Within (.body inner names statements false) :=
    h.child (by simp [children, childLists])
  constructor
  · intro node hnode
    exact hbody.child (by simpa [children, childLists] using hnode)
  · rintro node rfl
    exact h.child (by simp [children, childLists])

mutual

/-- The candidates of a statement are told by its tokens. Blocks hold statements again, so this
goes with the same of inverses and of lists. -/
theorem Statement.told_build {statement : Statement} {node : Node}
    (hbuild : statement.build file = .ok node) (hwithin : root.Within node)
    (hascends : Ascends statement.tokens) :
    Told file root statement.tokens node.candidates := by
  have hcovers := Statement.covers_build hbuild
  cases statement with
  | text lexeme | htmlComment lexeme | curlyComment lexeme =>
      rw [Statement.build] at hbuild
      cases hbuild
      simp only [candidates_text, candidates_htmlComment, candidates_curlyComment]
      exact told_nil file root _
  | mustache curly =>
      rw [Statement.build] at hbuild
      rw [Statement.tokens] at hascends ⊢
      exact Mustache.told_build hbuild hascends
  | block head program inverse close =>
      obtain ⟨invoked, statements, inverseNode, hinvoked, hprogram, hinverse, -, rfl⟩ :=
        Statement.exists_of_build_block hbuild
      rw [Statement.tokens, List.append_assoc, List.append_assoc] at hascends hcovers ⊢
      obtain ⟨-, hbodies⟩ := hascends.append
      obtain ⟨hstatements, hother⟩ := within_of_section hwithin
      exact told_section (by decide) hinvoked
        (told_buildStatements hprogram hstatements hbodies.append.1)
        (Inverse.told_build hinverse hother hbodies.append.2.append.1) hascends hcovers
  | element tag tagEnd body endTag =>
      obtain ⟨parts, members, hparts, hmembers, -, rfl⟩ := Statement.exists_of_build_element hbuild
      rw [Statement.tokens, List.append_assoc] at hascends hcovers ⊢
      refine told_elementNode hparts ?_ hascends hcovers hwithin
      have htold := told_buildStatements hmembers
        (fun node hnode => hwithin.child (by simp [elementNode, children, childLists, hnode]))
        hascends.append.2.tail.append.1
      exact (htold.before [⟨.endTag, endTag⟩]).after [⟨.tagEnd, tagEnd⟩]
  | selfClosing tag tagEnd | void tag tagEnd =>
      rw [Statement.build] at hbuild
      obtain ⟨parts, hparts, hbuild⟩ := exists_of_bind_eq_ok hbuild
      cases hbuild
      rw [Statement.tokens] at hascends hcovers ⊢
      exact told_elementNode hparts (told_nil file root _) hascends hcovers hwithin
termination_by structural statement

theorem Inverse.told_build {inverse : Inverse} {inverseNode : Option Node}
    (hbuild : inverse.build file = .ok inverseNode)
    (hwithin : ∀ node ∈ inverseNode, root.Within node) (hascends : Ascends inverse.tokens) :
    Told file root inverse.tokens (inverseNode.toList.flatMap Node.candidates) := by
  cases inverse with
  | absent =>
      rw [Inverse.build] at hbuild
      cases hbuild
      exact told_nil file root _
  | otherwise opening closing program =>
      obtain ⟨statements, hprogram, rfl⟩ := Inverse.exists_of_build_otherwise hbuild
      rw [Inverse.tokens] at hascends ⊢
      rw [Option.toList_some, List.flatMap_singleton, candidates_body]
      have htold := told_buildStatements hprogram
        (fun node hnode => (hwithin _ rfl).child (by simpa [children, childLists] using hnode))
        hascends.tail.tail
      exact htold.after [⟨.openElse, opening⟩, ⟨.closeCurly, closing⟩]
  | chained head program ending =>
      have hwhole := hbuild
      obtain ⟨invoked, statements, endingNode, hinvoked, hprogram, hending, rfl⟩ :=
        Inverse.exists_of_build_chained hbuild
      have hbody := Inverse.covers_build hwhole
      -- the block that the else goes on with covers the same tokens as the else
      have hcovers : Covers file (Inverse.chained head program ending).tokens
          (.block (some (((Inverse.chained head program ending).spanFrom head.opening).inFile file))
            invoked.callee invoked.params invoked.hash
            (.body (listLocation? file Statement.span program) head.names statements false)
            endingNode) := hbody
      rw [Inverse.tokens, List.append_assoc, ← List.append_nil ending.tokens] at hascends hcovers ⊢
      obtain ⟨-, hbodies⟩ := hascends.append
      obtain ⟨hstatements, hother⟩ := within_of_section
        ((hwithin _ rfl).child (List.mem_append_left _ List.mem_cons_self))
      rw [Option.toList_some, List.flatMap_singleton, candidates_body, List.flatMap_singleton]
      exact told_section (by decide) hinvoked
        (told_buildStatements hprogram hstatements hbodies.append.1)
        (Inverse.told_build hending hother hbodies.append.2.append.1) hascends hcovers
termination_by structural inverse

theorem told_buildStatements {statements : List Statement} {nodes : List Node}
    (hbuild : buildStatements file statements = .ok nodes)
    (hwithin : ∀ node ∈ nodes, root.Within node)
    (hascends : Ascends (statementTokens statements)) :
    Told file root (statementTokens statements) (nodes.flatMap Node.candidates) := by
  cases statements with
  | nil =>
      rw [buildStatements] at hbuild
      cases hbuild
      exact told_nil file root _
  | cons statement rest =>
      obtain ⟨node, others, hnode, hothers, rfl⟩ := exists_of_buildStatements_cons hbuild
      obtain ⟨hfirst, hrest⟩ := List.forall_mem_cons.1 hwithin
      rw [statementTokens] at hascends ⊢
      exact (Statement.told_build hnode hfirst hascends.append.1).append
        (told_buildStatements hothers hrest hascends.append.2) hascends
termination_by structural statements

end

end Phrase

/-- The candidates of a parsed text are written in its tokens, in the order of the tree. -/
theorem Template.told_parse {file source : String} {root : Node}
    (h : Template.parse file source = .ok root) :
    Told file root (Scan.ofText source).tokens root.candidates := by
  obtain ⟨-, statements, htokens, hbuild⟩ := parse_eq_ok_iff.1 h
  obtain ⟨nodes, hnodes, rfl⟩ := Phrase.exists_of_buildTemplate hbuild
  have hascends := Ascends.of_laid (laid_ofText source)
  rw [← htokens] at hascends ⊢
  rw [Node.candidates_template]
  refine Phrase.told_buildStatements hnodes (fun node hnode => ?_) hascends
  exact Node.Within.root.child (by simpa [Node.children, Node.childLists] using hnode)

end TemplateUsage
