import TemplateUsage.Classification
import TemplateUsage.Node

set_option autoImplicit false

/-!
# Usages of a tree

The components, helpers and modifiers that a tree invokes, in document order.
The walk keeps a stack of nodes still to be visited, each with the scope it is
evaluated in. Visiting a node gives its own usage, if it has one, and its
children in order with their scopes; the walk ends because the children of a
node count fewer nodes than the node.
-/

namespace TemplateUsage

/-- Sorts of usage. -/
inductive UsageKind where
  | component
  | invocable
  deriving DecidableEq, Repr, Inhabited

/-- The word for a sort of usage. -/
def UsageKind.word : UsageKind → String
  | .component => "component"
  | .invocable => "invocable"

/-- What a usage is written as. -/
inductive UsageSite where
  | element
  | mustache
  | subExpression
  | modifier
  | block
  deriving DecidableEq, Repr, Inhabited

/-- An invocation found in a template. -/
structure Usage where
  token : String
  kind : UsageKind
  site : UsageSite
  location : Option Location
  deriving DecidableEq, Repr, Inhabited

/-- The usage of a classified path. -/
def Usage.ofClassification (site : UsageSite) (location : Option Location) :
    Classification → Option Usage
  | .skip => none
  | .component token => some ⟨token, .component, site, location⟩
  | .invocable token => some ⟨token, .invocable, site, location⟩

/-- The usage of a path. -/
def Usage.ofPath? (path : String) (context : Name.Context) (scope : Scope) (site : UsageSite)
    (location : Option Location) : Option Usage :=
  Usage.ofClassification site location (Classification.ofPath path context scope)

/-- What an invocation is written as. -/
def InvocationForm.site : InvocationForm → UsageSite
  | .mustache _ => .mustache
  | .subExpression => .subExpression
  | .modifier => .modifier

/-- A node to be visited and the scope it is evaluated in. -/
abbrev WorkItem := Node × Scope

/-- What visiting a node gives. -/
structure Visit where
  usage : Option Usage
  children : List WorkItem

namespace Node

/-- Nodes evaluated in one scope. -/
def within (scope : Scope) (nodes : List Node) : List WorkItem := nodes.map (·, scope)

/-- The usage of a callee that is a path. -/
def calleeUsage? (callee : Node) (scope : Scope) (site : UsageSite)
    (location : Option Location) : Option Usage :=
  match callee with
  | .path _ original => Usage.ofPath? original .curlyPath scope site location
  | _ => none

/-- The callee as a child: a path is not visited on its own. -/
def calleeItems (callee : Node) (scope : Scope) : List WorkItem :=
  match callee with
  | .path _ _ => []
  | callee => [(callee, scope)]

/-- Visits a node. Attributes and modifiers of an element, and callee,
arguments and inverse of a block, do not see its block parameters. -/
def visit (node : Node) (scope : Scope) : Visit :=
  match node with
  | .template _ statements => ⟨none, within scope statements⟩
  | .element location tag attributes modifiers params children _ =>
      ⟨Usage.ofPath? tag .tagName scope .element location,
        within scope attributes ++ within scope modifiers ++
          within (scope.push params) children⟩
  | .attribute _ _ value => ⟨none, [(value, scope)]⟩
  | .concat _ parts => ⟨none, within scope parts⟩
  | .invocation location form callee params named =>
      ⟨calleeUsage? callee scope form.site location,
        calleeItems callee scope ++ within scope params ++ [(named, scope)]⟩
  | .block location callee params named program inverse =>
      ⟨calleeUsage? callee scope .block location,
        calleeItems callee scope ++ within scope params ++ [(named, scope), (program, scope)] ++
          within scope inverse.toList⟩
  | .body _ params statements _ => ⟨none, within (scope.push params) statements⟩
  | .hash _ pairs => ⟨none, within scope pairs⟩
  | .pair _ _ value => ⟨none, [(value, scope)]⟩
  | .unknown params parts children members =>
      ⟨none, within scope params ++ within scope parts ++ within scope children ++
        within scope members⟩
  | .text _ _ | .htmlComment _ _ | .curlyComment _ _ | .path _ _ | .literal _ _ => ⟨none, []⟩

/-! ## Number of nodes -/

mutual

/-- Number of nodes of a tree. -/
def count : Node → Nat
  | .template _ statements => countAll statements + 1
  | .element _ _ attributes modifiers _ children _ =>
      countAll attributes + countAll modifiers + countAll children + 1
  | .attribute _ _ value => value.count + 1
  | .text _ _ => 1
  | .htmlComment _ _ => 1
  | .curlyComment _ _ => 1
  | .concat _ parts => countAll parts + 1
  | .invocation _ _ callee params named => callee.count + countAll params + named.count + 1
  | .block _ callee params named program inverse =>
      callee.count + countAll params + named.count + program.count + countOption inverse + 1
  | .body _ _ statements _ => countAll statements + 1
  | .hash _ pairs => countAll pairs + 1
  | .pair _ _ value => value.count + 1
  | .path _ _ => 1
  | .literal _ _ => 1
  | .unknown params parts children members =>
      countAll params + countAll parts + countAll children + countAll members + 1

/-- Number of nodes of a list of trees. -/
def countAll : List Node → Nat
  | [] => 0
  | node :: nodes => node.count + countAll nodes

/-- Number of nodes of a tree that may be missing. -/
def countOption : Option Node → Nat
  | none => 0
  | some node => node.count

end

/-- Number of nodes still to be visited below a stack. -/
def pending : List WorkItem → Nat
  | [] => 0
  | item :: items => item.1.count + pending items

theorem pending_append (as bs : List WorkItem) : pending (as ++ bs) = pending as + pending bs := by
  induction as with
  | nil => simp [pending]
  | cons item items ih =>
      simp only [List.cons_append, pending, ih]
      omega

theorem pending_within (scope : Scope) (nodes : List Node) :
    pending (within scope nodes) = countAll nodes := by
  induction nodes with
  | nil => rfl
  | cons node nodes ih =>
      simp only [within, List.map_cons, pending, countAll] at ih ⊢
      omega

theorem pending_calleeItems_le (callee : Node) (scope : Scope) :
    pending (calleeItems callee scope) ≤ callee.count := by
  unfold calleeItems
  split
  · exact Nat.zero_le _
  · simp [pending]

theorem countAll_toList (inverse : Option Node) :
    countAll inverse.toList = countOption inverse := by
  cases inverse <;> simp [countAll, countOption]

/-- The children of a node count fewer nodes than the node. -/
theorem pending_visit_lt (node : Node) (scope : Scope) :
    pending (node.visit scope).children < node.count := by
  cases node with
  | invocation _ _ callee _ _ =>
      have := pending_calleeItems_le callee scope
      simp only [visit, pending_append, pending_within, pending, count]
      omega
  | block _ callee _ _ _ _ =>
      have := pending_calleeItems_le callee scope
      simp only [visit, pending_append, pending_within, pending, count, countAll_toList]
      omega
  | _ =>
      simp only [visit, pending_append, pending_within, pending, count]
      omega

end Node

/-- The usages below a stack of nodes, the top first. -/
def collectFrom (stack : List WorkItem) : List Usage :=
  match stack with
  | [] => []
  | (node, scope) :: rest =>
      let visit := node.visit scope
      visit.usage.toList ++ collectFrom (visit.children ++ rest)
termination_by Node.pending stack
decreasing_by
  have := Node.pending_visit_lt node scope
  simp only [Node.pending, Node.pending_append]
  omega

/-- The usages of a tree in a scope, in document order. -/
def Node.collect (node : Node) (scope : Scope) : List Usage := collectFrom [(node, scope)]

end TemplateUsage
