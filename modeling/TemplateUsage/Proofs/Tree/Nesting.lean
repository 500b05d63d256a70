import TemplateUsage.Proofs.Grammar.Extent
import TemplateUsage.Proofs.Scan.Layout

set_option autoImplicit false

/-!
# Nodes over tokens

A node covers the tokens it is located by, and the nodes of a list are spread over
tokens when each covers some of them, one after the other. Where the tokens stand one
after the other in a text, so do the nodes, and none of them leaves the place of the
tokens. Main statements: `Covers.exists_location`, `Spread.bounds` and
`Spread.pairwise`.
-/

namespace TemplateUsage

open Grammar Scan

/-! ## The nodes of a tree -/

namespace Node

/-- The lists of nodes that a node holds, one for each place. -/
def childLists : Node → List (List Node)
  | .template _ members => [members]
  | .element _ _ attributes modifiers _ children _ => [attributes, modifiers, children]
  | .attribute _ _ value => [[value]]
  | .concat _ parts => [parts]
  | .invocation _ _ callee params named => [[callee], params, [named]]
  | .block _ callee params named program inverse =>
      [[callee], params, [named], [program], inverse.toList]
  | .body _ _ statements _ => [statements]
  | .hash _ pairs => [pairs]
  | .pair _ _ value => [[value]]
  | .unknown params parts children members => [params, parts, children, members]
  | .text _ _ | .htmlComment _ _ | .curlyComment _ _ | .path _ _ | .literal _ _ => []

/-- The nodes that a node holds. -/
def children (node : Node) : List Node := node.childLists.flatten

/-- The nodes of a tree. -/
inductive Within (root : Node) : Node → Prop where
  | root : Within root root
  | child {parent node : Node} : Within root parent → node ∈ parent.children → Within root node

/-- The property holds of every node of the tree. -/
def Everywhere (property : Node → Prop) (root : Node) : Prop :=
  ∀ node, root.Within node → property node

/-- A node of a tree is the root, or a node of the tree of one of its children. -/
theorem Within.eq_or_exists {root node : Node} (h : root.Within node) :
    node = root ∨ ∃ child ∈ root.children, child.Within node := by
  induction h with
  | root => exact .inl rfl
  | child hparent hmem ih =>
      rcases ih with rfl | ⟨child, hchild, hwithin⟩
      · exact .inr ⟨_, hmem, .root⟩
      · exact .inr ⟨child, hchild, .child hwithin hmem⟩

theorem Everywhere.intro {property : Node → Prop} {root : Node} (hroot : property root)
    (hchildren : ∀ child ∈ root.children, child.Everywhere property) :
    root.Everywhere property := by
  intro node hwithin
  rcases hwithin.eq_or_exists with rfl | ⟨child, hchild, hwithin⟩
  · exact hroot
  · exact hchildren child hchild node hwithin

end Node

/-! ## Covering tokens -/

/-- The characters from one offset of a text to another, as a location. -/
def locationAt (file : String) (text : List Char) (start stop : Nat) : Location :=
  Span.inFile file ⟨Point.counted text start, Point.counted text stop⟩

@[simp] theorem start_locationAt (file : String) (text : List Char) (start stop : Nat) :
    (locationAt file text start stop).start = start := rfl

@[simp] theorem stop_locationAt (file : String) (text : List Char) (start stop : Nat) :
    (locationAt file text start stop).stop = stop := rfl

/-- The node is located from the first to the last of the tokens. -/
def Covers (file : String) (tokens : List Token) (node : Node) : Prop :=
  ∃ span, tokensSpan? tokens = some span ∧ node.location? = some (span.inFile file)

/-- The nodes cover some of the tokens each, in their order. -/
inductive Spread (file : String) : List Token → List Node → Prop where
  | nil (tokens : List Token) : Spread file tokens []
  | cons {own rest : List Token} {node : Node} {nodes : List Node} (gap : List Token) :
      Covers file own node → Spread file rest nodes →
        Spread file (gap ++ (own ++ rest)) (node :: nodes)

/-- The first node stops before the second starts. -/
def Node.Precedes (first second : Node) : Prop :=
  ∀ location ∈ first.location?, ∀ next ∈ second.location?, location.stop ≤ next.start

section

variable {file : String}

theorem Spread.after {tokens : List Token} {nodes : List Node} (front : List Token)
    (h : Spread file tokens nodes) : Spread file (front ++ tokens) nodes := by
  induction h with
  | nil tokens => exact .nil _
  | cons gap hcovers hrest _ =>
      rw [← List.append_assoc]
      exact .cons (front ++ gap) hcovers hrest

/-- Nodes spread over tokens and nodes spread over those that follow are spread over all. -/
theorem Spread.append {front back : List Token} {first second : List Node}
    (hfirst : Spread file front first) (hsecond : Spread file back second) :
    Spread file (front ++ back) (first ++ second) := by
  induction hfirst with
  | nil front => exact hsecond.after front
  | cons gap hcovers _ ih =>
      rw [List.append_assoc, List.append_assoc]
      exact .cons gap hcovers ih

theorem Spread.before {tokens : List Token} {nodes : List Node} (back : List Token)
    (h : Spread file tokens nodes) : Spread file (tokens ++ back) nodes := by
  simpa using h.append (.nil back)

theorem Spread.location_ne_none {tokens : List Token} {nodes : List Node}
    (h : Spread file tokens nodes) : ∀ node ∈ nodes, node.location? ≠ none := by
  induction h with
  | nil => nofun
  | cons gap hcovers _ ih =>
      obtain ⟨span, -, hlocation⟩ := hcovers
      refine List.forall_mem_cons.2 ⟨?_, ih⟩
      rw [hlocation]
      exact Option.some_ne_none _

theorem Covers.spread {tokens : List Token} {node : Node} (h : Covers file tokens node) :
    Spread file tokens [node] := by
  simpa using Spread.cons [] h (.nil [])

end

/-! ## Tokens of a text -/

section

variable {file : String} {text : List Char} {opened : List Construct} {offset : Nat}
  {tokens : List Token}

/-- What covers tokens of a text is located where they are. -/
theorem Covers.exists_location {node : Node} (hlaid : Laid text opened offset tokens)
    (hcovers : Covers file tokens node) :
    ∃ first rest, tokens = first :: rest ∧
      node.location? = some (locationAt file text first.start (stopAfter offset tokens)) ∧
      stopAfter offset tokens ≤ text.length := by
  obtain ⟨span, hspan, hlocation⟩ := hcovers
  rw [tokensSpan?, Phrase.listSpan?] at hspan
  cases tokens with
  | nil => cases hspan
  | cons first rest =>
      have hlast := List.getLast?_eq_some_getLast (List.cons_ne_nil first rest)
      rw [List.head?_cons, hlast] at hspan
      obtain rfl := Option.some.inj hspan
      rw [stopAfter_of_getLast hlast offset]
      generalize (first :: rest).getLast (List.cons_ne_nil first rest) = last at *
      have hfirst := hlaid.located first List.mem_cons_self
      have hend := hlaid.located last (List.mem_of_getLast? hlast)
      refine ⟨first, rest, rfl, ?_, hend.placed.stop_le⟩
      rw [hlocation, Span.cover, hfirst.span_eq, hend.span_eq]
      rfl

/-- No node of several leaves the place of their tokens. -/
theorem Spread.bounds {nodes : List Node} (hlaid : Laid text opened offset tokens)
    (hspread : Spread file tokens nodes) :
    ∀ node ∈ nodes, ∀ location ∈ node.location?,
      (offset : Int) ≤ location.start ∧ location.stop ≤ (stopAfter offset tokens : Int) := by
  induction hspread generalizing opened offset with
  | nil => nofun
  | @cons own others node nodes gap hcovers hspread ih =>
      obtain ⟨hgap, hlaid⟩ := laid_append.1 hlaid
      obtain ⟨hown, hothers⟩ := laid_append.1 hlaid
      have hbefore := hgap.le_stopAfter
      have hafter := hothers.le_stopAfter
      rw [stopAfter_append, stopAfter_append]
      refine List.forall_mem_cons.2 ⟨fun location hlocation => ?_,
        fun next hmem location hlocation => ?_⟩
      · obtain ⟨first, rest, rfl, hplace, -⟩ := hcovers.exists_location hown
        rw [hplace] at hlocation
        obtain rfl := Option.some.inj hlocation
        have hfirst := hown.start_lt_stopAfter.1
        rw [start_locationAt, stop_locationAt]
        omega
      · obtain ⟨hstart, hstop⟩ := ih hothers next hmem location hlocation
        have hmiddle := hown.le_stopAfter
        omega

/-- Nodes that are spread over the tokens of a node lie inside it. -/
theorem Spread.inside {parent : Node} {nodes : List Node} (hlaid : Laid text opened offset tokens)
    (hcovers : Covers file tokens parent) (hspread : Spread file tokens nodes) :
    ∀ node ∈ nodes, ∀ location ∈ node.location?, ∃ outer ∈ parent.location?,
      outer.start ≤ location.start ∧ location.stop ≤ outer.stop := by
  intro node hmem location hlocation
  obtain ⟨first, rest, rfl, hplace, -⟩ := hcovers.exists_location hlaid
  -- the parent starts with its first token, whatever stands before that
  have htight : Laid text opened first.start (first :: rest) :=
    ⟨Nat.le_refl _, fun _ => rfl, hlaid.2.2⟩
  exact ⟨_, hplace, hspread.bounds htight node hmem location hlocation⟩

/-- Nodes that are spread over tokens stand one after the other. -/
theorem Spread.pairwise {nodes : List Node} (hlaid : Laid text opened offset tokens)
    (hspread : Spread file tokens nodes) : nodes.Pairwise Node.Precedes := by
  induction hspread generalizing opened offset with
  | nil => exact .nil
  | @cons own others node nodes gap hcovers hspread ih =>
      obtain ⟨-, hlaid⟩ := laid_append.1 hlaid
      obtain ⟨hown, hothers⟩ := laid_append.1 hlaid
      refine .cons (fun next hmem location hlocation nextLocation hnext => ?_) (ih hothers)
      obtain ⟨first, rest, -, hplace, -⟩ := hcovers.exists_location hown
      rw [hplace] at hlocation
      obtain rfl := Option.some.inj hlocation
      exact (hspread.bounds hothers next hmem nextLocation hnext).1

end

end TemplateUsage
