import TemplateUsage.Proofs.Walk

set_option autoImplicit false

/-!
# Revised trees

A revision writes other locations, other comments and other literals into a tree and
leaves the rest alone: the shape, the names, the paths and the texts. The usages depend on
nothing that is revised but for where they stand (`Node.walk_revise`).
-/

namespace TemplateUsage

/-- What is written for the locations, the comments and the literals of a tree. What is
written for a comment may depend on where it stands. -/
structure Revision where
  place : Option Location → Option Location
  comment : Option Location → String → String
  literal : Literal → Literal

/-- The one revision and then the other. -/
def Revision.andThen (first second : Revision) : Revision where
  place location := second.place (first.place location)
  comment location text := second.comment (first.place location) (first.comment location text)
  literal value := second.literal (first.literal value)

/-- The usage where the revision places it. -/
def Usage.revise (revision : Revision) (usage : Usage) : Usage :=
  { usage with location := revision.place usage.location }

/-- Whether a path is a usage does not depend on its place; the revision places the usage. -/
theorem Usage.ofPath?_revise (revision : Revision) (path : String) (context : Name.Context)
    (scope : Scope) (site : UsageSite) (location : Option Location) :
    Usage.ofPath? path context scope site (revision.place location) =
      (Usage.ofPath? path context scope site location).map (Usage.revise revision) := by
  unfold Usage.ofPath? Usage.ofClassification
  split <;> rfl

namespace Node

variable (revision : Revision)

mutual

/-- The revised tree. -/
def revise : Node → Node
  | .template location members => .template (revision.place location) (reviseAll members)
  | .element location tag attributes modifiers params children selfClosing =>
      .element (revision.place location) tag (reviseAll attributes) (reviseAll modifiers) params
        (reviseAll children) selfClosing
  | .attribute location name value => .attribute (revision.place location) name value.revise
  | .text location chars => .text (revision.place location) chars
  | .htmlComment location value =>
      .htmlComment (revision.place location) (revision.comment location value)
  | .curlyComment location value =>
      .curlyComment (revision.place location) (revision.comment location value)
  | .concat location parts => .concat (revision.place location) (reviseAll parts)
  | .invocation location form callee params named =>
      .invocation (revision.place location) form callee.revise (reviseAll params) named.revise
  | .block location callee params named program inverse =>
      .block (revision.place location) callee.revise (reviseAll params) named.revise
        program.revise (reviseOption inverse)
  | .body location params statements chained =>
      .body (revision.place location) params (reviseAll statements) chained
  | .hash location pairs => .hash (revision.place location) (reviseAll pairs)
  | .pair location key value => .pair (revision.place location) key value.revise
  | .path location original => .path (revision.place location) original
  | .literal location value => .literal (revision.place location) (revision.literal value)
  | .unknown params parts children members =>
      .unknown (reviseAll params) (reviseAll parts) (reviseAll children) (reviseAll members)

/-- The revised trees. -/
def reviseAll : List Node → List Node
  | [] => []
  | node :: nodes => node.revise :: reviseAll nodes

/-- The revised tree, if there is one. -/
def reviseOption : Option Node → Option Node
  | none => none
  | some node => some node.revise

end

theorem reviseAll_eq_map (nodes : List Node) :
    reviseAll revision nodes = nodes.map (revise revision) := by
  induction nodes with
  | nil => rfl
  | cons node nodes ih => rw [reviseAll, ih, List.map_cons]

section

variable (second : Revision)

mutual

/-- A tree that is revised twice is revised by both at once. -/
theorem revise_revise : ∀ node : Node,
    (node.revise revision).revise second = node.revise (revision.andThen second)
  | .template _ members => by
      rw [revise, revise, revise, reviseAll_reviseAll members]
      rfl
  | .element _ _ attributes modifiers _ children _ => by
      rw [revise, revise, revise, reviseAll_reviseAll attributes, reviseAll_reviseAll modifiers,
        reviseAll_reviseAll children]
      rfl
  | .attribute _ _ value => by
      rw [revise, revise, revise, revise_revise value]
      rfl
  | .text _ _ | .htmlComment _ _ | .curlyComment _ _ | .path _ _ | .literal _ _ => rfl
  | .concat _ parts => by
      rw [revise, revise, revise, reviseAll_reviseAll parts]
      rfl
  | .invocation _ _ callee params named => by
      rw [revise, revise, revise, revise_revise callee, reviseAll_reviseAll params,
        revise_revise named]
      rfl
  | .block _ callee params named program inverse => by
      rw [revise, revise, revise, revise_revise callee, reviseAll_reviseAll params,
        revise_revise named, revise_revise program, reviseOption_reviseOption inverse]
      rfl
  | .body _ _ statements _ => by
      rw [revise, revise, revise, reviseAll_reviseAll statements]
      rfl
  | .hash _ pairs => by
      rw [revise, revise, revise, reviseAll_reviseAll pairs]
      rfl
  | .pair _ _ value => by
      rw [revise, revise, revise, revise_revise value]
      rfl
  | .unknown params parts children members => by
      rw [revise, revise, revise, reviseAll_reviseAll params, reviseAll_reviseAll parts,
        reviseAll_reviseAll children, reviseAll_reviseAll members]

theorem reviseAll_reviseAll : ∀ nodes : List Node,
    reviseAll second (reviseAll revision nodes) = reviseAll (revision.andThen second) nodes
  | [] => rfl
  | node :: nodes => by
      rw [reviseAll, reviseAll, reviseAll, revise_revise node, reviseAll_reviseAll nodes]

theorem reviseOption_reviseOption : ∀ node : Option Node,
    reviseOption second (reviseOption revision node) =
      reviseOption (revision.andThen second) node
  | none => rfl
  | some node => by rw [reviseOption, reviseOption, reviseOption, revise_revise node]

end

end

/-- The usage of a callee is found in the revised callee, where the revision places it. -/
theorem calleeUsage?_revise (callee : Node) (scope : Scope) (site : UsageSite)
    (location : Option Location) :
    (callee.revise revision).calleeUsage? scope site (revision.place location) =
      (callee.calleeUsage? scope site location).map (Usage.revise revision) := by
  cases callee with
  | path place original => exact Usage.ofPath?_revise revision _ _ _ _ _
  | _ => rfl

theorem toList_map_revise (usage : Option Usage) :
    (usage.map (Usage.revise revision)).toList = usage.toList.map (Usage.revise revision) := by
  cases usage <;> rfl

mutual

/-- Walking a revised tree finds the usages of the tree, revised. The scope holds names alone,
so no revision reaches it. -/
theorem walk_revise : ∀ (node : Node) (scope : Scope),
    (node.revise revision).walk scope = (node.walk scope).map (Usage.revise revision)
  | .template location members, scope => by
      rw [revise, walk, walk, walkAll_revise]
  | .element location tag attributes modifiers params children selfClosing, scope => by
      rw [revise, walk, walk, Usage.ofPath?_revise, toList_map_revise, walkAll_revise,
        walkAll_revise, walkAll_revise, List.map_append, List.map_append, List.map_append]
  | .attribute location name value, scope => by
      rw [revise, walk, walk, walk_revise value]
  | .text _ _, _ => rfl
  | .htmlComment _ _, _ => rfl
  | .curlyComment _ _, _ => rfl
  | .concat location parts, scope => by
      rw [revise, walk, walk, walkAll_revise]
  | .invocation location form callee params named, scope => by
      rw [revise, walk, walk, calleeUsage?_revise, toList_map_revise, walk_revise callee,
        walkAll_revise, walk_revise named, List.map_append, List.map_append, List.map_append]
  | .block location callee params named program inverse, scope => by
      rw [revise, walk, walk, calleeUsage?_revise, toList_map_revise, walk_revise callee,
        walkAll_revise, walk_revise named, walk_revise program, walkOption_revise,
        List.map_append, List.map_append, List.map_append, List.map_append, List.map_append]
  | .body location params statements chained, scope => by
      rw [revise, walk, walk, walkAll_revise]
  | .hash location pairs, scope => by
      rw [revise, walk, walk, walkAll_revise]
  | .pair location key value, scope => by
      rw [revise, walk, walk, walk_revise value]
  | .path _ _, _ => rfl
  | .literal _ _, _ => rfl
  | .unknown params parts children members, scope => by
      rw [revise, walk, walk, walkAll_revise, walkAll_revise, walkAll_revise, walkAll_revise,
        List.map_append, List.map_append, List.map_append]

theorem walkAll_revise : ∀ (nodes : List Node) (scope : Scope),
    walkAll (reviseAll revision nodes) scope = (walkAll nodes scope).map (Usage.revise revision)
  | [], _ => rfl
  | node :: nodes, scope => by
      rw [reviseAll, walkAll, walkAll, walk_revise node, walkAll_revise nodes, List.map_append]

theorem walkOption_revise : ∀ (node : Option Node) (scope : Scope),
    walkOption (reviseOption revision node) scope =
      (walkOption node scope).map (Usage.revise revision)
  | none, _ => rfl
  | some node, scope => by rw [reviseOption, walkOption, walkOption, walk_revise node]

end

/-- The usages of a revised tree are those of the tree, where the revision places them. -/
theorem collect_revise (node : Node) (scope : Scope) :
    (node.revise revision).collect scope = (node.collect scope).map (Usage.revise revision) := by
  rw [collect_eq_walk, collect_eq_walk, walk_revise]

end Node

end TemplateUsage
