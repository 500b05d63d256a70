import TemplateUsage.Proofs.Scope
import TemplateUsage.Proofs.Walk

set_option autoImplicit false

/-!
# Lexical scoping of usages

A candidate is a place where a path may name something invoked: the tag of an
element, or the callee of a mustache, a sub-expression, a modifier or a block.
`Node.sites` lists the candidates of a tree in pre-order. Each comes with the
declarations of block parameters around it: those of the elements that have it
among their children and of the bodies that have it among their statements. No
scope enters this list.

The usages of a tree in a scope are the sites that the scope and the declarations
leave visible, in the same order, and the depth of the scope the walk carries to a
site counts the declarations around it (`collect_eq_visible_sites`).
-/

namespace TemplateUsage

/-! ## Candidates and sites -/

/-- A place where a path may name something invoked. -/
structure Candidate where
  path : String
  context : Name.Context
  form : UsageSite
  location : Option Location
  deriving DecidableEq, Repr

/-- A candidate and the declarations around it, outermost first. -/
structure Site where
  candidate : Candidate
  declared : List (List String)
  deriving DecidableEq, Repr

namespace Candidate

/-- The name a block parameter would have to bind to hide the candidate. -/
def head (candidate : Candidate) : String :=
  Name.headSegment candidate.path candidate.context

/-- The usage of a candidate that is visible. -/
def usage (candidate : Candidate) : Usage :=
  match candidate.context with
  | .tagName => ⟨Name.ofTag candidate.path, .component, candidate.form, candidate.location⟩
  | .curlyPath => ⟨candidate.path, .invocable, candidate.form, candidate.location⟩

/-- The usage of a candidate as the walk finds it in a scope. -/
def usage? (candidate : Candidate) (scope : Scope) : Option Usage :=
  Usage.ofPath? candidate.path candidate.context scope candidate.form candidate.location

/-- Whether a path can name something invoked: it is neither empty nor an
argument, and a tag is neither that of a plain element nor that of a named block. -/
def NamesInvocable (candidate : Candidate) : Prop :=
  candidate.path ≠ "" ∧ candidate.path.toList.head? ≠ some '@' ∧
    (candidate.context = .tagName →
      ∀ c ∈ candidate.path.toList.head?, Text.isLowercase c = false ∧ c ≠ ':')

instance (candidate : Candidate) : Decidable candidate.NamesInvocable :=
  inferInstanceAs (Decidable (_ ∧ _ ∧ _))

end Candidate

namespace Site

/-- The site inside one more declaration. -/
def under (names : List String) (site : Site) : Site :=
  ⟨site.candidate, names :: site.declared⟩

/-- The usage of a site that is visible. -/
def usage (site : Site) : Usage := site.candidate.usage

/-- The scope inside the declarations around a site. -/
def scopeIn (scope : Scope) (site : Site) : Scope := site.declared.foldl Scope.push scope

/-- Whether a site counts as a usage in a scope: nothing around it binds its head. -/
def Visible (scope : Scope) (site : Site) : Prop :=
  site.candidate.NamesInvocable ∧ scope.binds site.candidate.head = false ∧
    ∀ names ∈ site.declared, site.candidate.head ∉ names

instance (scope : Scope) (site : Site) : Decidable (site.Visible scope) :=
  inferInstanceAs (Decidable (_ ∧ _ ∧ _))

end Site

namespace Node

/-- The candidate a node is itself. -/
def candidate? : Node → Option Candidate
  | .element location tag _ _ _ _ _ => some ⟨tag, .tagName, .element, location⟩
  | .invocation location form (.path _ original) _ _ =>
      some ⟨original, .curlyPath, form.site, location⟩
  | .block location (.path _ original) _ _ _ _ => some ⟨original, .curlyPath, .block, location⟩
  | _ => none

/-- The site of a node, inside no declaration. -/
def ownSite (node : Node) : List Site := node.candidate?.toList.map (⟨·, []⟩)

mutual

/-- The sites of a tree in pre-order. -/
def sites : Node → List Site
  | .template _ statements => sitesOfAll statements
  | .element location tag attributes modifiers params children selfClosing =>
      ownSite (.element location tag attributes modifiers params children selfClosing) ++
        sitesOfAll attributes ++ sitesOfAll modifiers ++
        (sitesOfAll children).map (Site.under params)
  | .attribute _ _ value => value.sites
  | .text _ _ => []
  | .htmlComment _ _ => []
  | .curlyComment _ _ => []
  | .concat _ parts => sitesOfAll parts
  | .invocation location form callee params named =>
      ownSite (.invocation location form callee params named) ++ callee.sites ++
        sitesOfAll params ++ named.sites
  | .block location callee params named program inverse =>
      ownSite (.block location callee params named program inverse) ++ callee.sites ++
        sitesOfAll params ++ named.sites ++ program.sites ++ sitesOfOption inverse
  | .body _ params statements _ => (sitesOfAll statements).map (Site.under params)
  | .hash _ pairs => sitesOfAll pairs
  | .pair _ _ value => value.sites
  | .path _ _ => []
  | .literal _ _ => []
  | .unknown params parts children members =>
      sitesOfAll params ++ sitesOfAll parts ++ sitesOfAll children ++ sitesOfAll members

/-- The sites of a list of trees. -/
def sitesOfAll : List Node → List Site
  | [] => []
  | node :: nodes => node.sites ++ sitesOfAll nodes

/-- The sites of a tree that may be missing. -/
def sitesOfOption : Option Node → List Site
  | none => []
  | some node => node.sites

end

end Node

/-! ## Nodes in the order the walk takes them -/

/-- The items the walk takes off a stack, in order, each with the scope it carries. -/
def visitedFrom (stack : List WorkItem) : List WorkItem :=
  match stack with
  | [] => []
  | (node, scope) :: rest => (node, scope) :: visitedFrom ((node.visit scope).children ++ rest)
termination_by Node.pending stack
decreasing_by
  have := Node.pending_visit_lt node scope
  simp only [Node.pending, Node.pending_append]
  omega

/-- The nodes of a tree in the order the walk takes them. -/
def Node.visited (node : Node) (scope : Scope) : List WorkItem := visitedFrom [(node, scope)]

/-- The candidate an item of the walk is, with the scope it is met in. -/
def scopedCandidate? (item : WorkItem) : Option (Candidate × Scope) :=
  item.1.candidate?.map (·, item.2)

/-- The candidates the walk meets below a stack. -/
def candidatesFrom (stack : List WorkItem) : List (Candidate × Scope) :=
  (visitedFrom stack).filterMap scopedCandidate?

theorem visitedFrom_cons (node : Node) (scope : Scope) (rest : List WorkItem) :
    visitedFrom ((node, scope) :: rest) =
      (node, scope) :: visitedFrom ((node.visit scope).children ++ rest) := by
  rw [visitedFrom]

theorem visitedFrom_append (stack rest : List WorkItem) :
    visitedFrom (stack ++ rest) = visitedFrom stack ++ visitedFrom rest := by
  fun_induction visitedFrom stack with
  | case1 => rfl
  | case2 node scope below ih =>
      rw [List.cons_append, visitedFrom_cons, List.cons_append, ← ih, List.append_assoc]

theorem candidatesFrom_append (stack rest : List WorkItem) :
    candidatesFrom (stack ++ rest) = candidatesFrom stack ++ candidatesFrom rest := by
  rw [candidatesFrom, visitedFrom_append, List.filterMap_append]
  rfl

theorem candidatesFrom_nil : candidatesFrom [] = [] := by
  rw [candidatesFrom, visitedFrom]
  rfl

theorem candidatesFrom_singleton (node : Node) (scope : Scope) :
    candidatesFrom [(node, scope)] =
      (scopedCandidate? (node, scope)).toList ++ candidatesFrom (node.visit scope).children := by
  rw [candidatesFrom, visitedFrom_cons, List.append_nil]
  cases h : scopedCandidate? (node, scope) with
  | none => rw [List.filterMap_cons_none h]; rfl
  | some pair => rw [List.filterMap_cons_some h]; rfl

/-- The usage of a visited node is that of its candidate in the scope carried to it. -/
theorem usage_visit (node : Node) (scope : Scope) :
    (node.visit scope).usage = node.candidate?.bind (·.usage? scope) := by
  cases node with
  | invocation location form callee params named => cases callee <;> rfl
  | block location callee params named program inverse => cases callee <;> rfl
  | _ => rfl

/-- The walk notes the usages of the candidates it meets, each in its scope. -/
theorem collectFrom_eq_candidates (stack : List WorkItem) :
    collectFrom stack = (candidatesFrom stack).filterMap fun met => met.1.usage? met.2 := by
  fun_induction collectFrom stack with
  | case1 => rw [candidatesFrom_nil]; rfl
  | case2 node scope rest visit ih =>
      have hsplit := candidatesFrom_append [(node, scope)] rest
      rw [List.singleton_append] at hsplit
      have hown : (node.visit scope).usage.toList =
          (scopedCandidate? (node, scope)).toList.filterMap fun met => met.1.usage? met.2 := by
        rw [usage_visit, scopedCandidate?]
        cases node.candidate? with
        | none => rfl
        | some candidate => cases h : candidate.usage? scope <;> simp [h]
      rw [ih, hsplit, candidatesFrom_singleton, candidatesFrom_append, List.append_assoc,
        List.filterMap_append, List.filterMap_append, List.filterMap_append, ← hown]

/-! ## The candidates met are the sites -/

/-- A site as the walk meets it from a scope. -/
def Site.met (scope : Scope) (site : Site) : Candidate × Scope :=
  (site.candidate, site.scopeIn scope)

theorem Site.map_met_under (scope : Scope) (names : List String) (sites : List Site) :
    (sites.map (Site.under names)).map (Site.met scope) =
      sites.map (Site.met (scope.push names)) := by
  rw [List.map_map]
  rfl

namespace Node

/-- The candidate of a node is the site of its own, met in the scope. -/
theorem scopedCandidate?_toList (node : Node) (scope : Scope) :
    (scopedCandidate? (node, scope)).toList = node.ownSite.map (Site.met scope) := by
  rw [scopedCandidate?, ownSite]
  cases node.candidate? <;> rfl

theorem candidatesFrom_calleeItems (callee : Node) (scope : Scope) :
    candidatesFrom (calleeItems callee scope) = candidatesFrom [(callee, scope)] := by
  unfold calleeItems
  split
  · rw [candidatesFrom_singleton]
    rfl
  · rfl

mutual

/-- Below a node the walk meets its sites, each in the scope inside the declarations around it. -/
theorem candidatesFrom_eq_sites : ∀ (node : Node) (scope : Scope),
    candidatesFrom [(node, scope)] = node.sites.map (Site.met scope)
  | .template _ statements, scope => by
      rw [candidatesFrom_singleton, sites]
      exact candidatesFrom_within_eq_sites statements scope
  | .element location tag attributes modifiers params children selfClosing, scope => by
      rw [candidatesFrom_singleton, scopedCandidate?_toList, sites]
      -- only the children are evaluated inside the element's own declaration
      simp only [visit, candidatesFrom_append, candidatesFrom_within_eq_sites attributes,
        candidatesFrom_within_eq_sites modifiers, candidatesFrom_within_eq_sites children,
        List.map_append, Site.map_met_under, List.append_assoc]
  | .attribute _ _ value, scope => by
      rw [candidatesFrom_singleton, sites]
      exact candidatesFrom_eq_sites value scope
  | .text _ _, _ => by
      rw [candidatesFrom_singleton, sites]
      exact candidatesFrom_nil
  | .htmlComment _ _, _ => by
      rw [candidatesFrom_singleton, sites]
      exact candidatesFrom_nil
  | .curlyComment _ _, _ => by
      rw [candidatesFrom_singleton, sites]
      exact candidatesFrom_nil
  | .concat _ parts, scope => by
      rw [candidatesFrom_singleton, sites]
      exact candidatesFrom_within_eq_sites parts scope
  | .invocation location form callee params named, scope => by
      rw [candidatesFrom_singleton, scopedCandidate?_toList, sites]
      simp only [visit, candidatesFrom_append, candidatesFrom_calleeItems,
        candidatesFrom_eq_sites callee, candidatesFrom_within_eq_sites params,
        candidatesFrom_eq_sites named, List.map_append, List.append_assoc]
  | .block location callee params named program inverse, scope => by
      rw [candidatesFrom_singleton, scopedCandidate?_toList, sites]
      -- the program is met in the scope of its block: its body makes the declaration
      have hpair : candidatesFrom [(named, scope), (program, scope)] =
          candidatesFrom [(named, scope)] ++ candidatesFrom [(program, scope)] :=
        candidatesFrom_append [(named, scope)] [(program, scope)]
      simp only [visit, candidatesFrom_append, candidatesFrom_calleeItems, hpair,
        candidatesFrom_eq_sites callee, candidatesFrom_within_eq_sites params,
        candidatesFrom_eq_sites named, candidatesFrom_eq_sites program,
        candidatesFrom_toList_eq_sites inverse, List.map_append, List.append_assoc]
  | .body _ params statements _, scope => by
      rw [candidatesFrom_singleton, sites, Site.map_met_under]
      exact candidatesFrom_within_eq_sites statements (scope.push params)
  | .hash _ pairs, scope => by
      rw [candidatesFrom_singleton, sites]
      exact candidatesFrom_within_eq_sites pairs scope
  | .pair _ _ value, scope => by
      rw [candidatesFrom_singleton, sites]
      exact candidatesFrom_eq_sites value scope
  | .path _ _, _ => by
      rw [candidatesFrom_singleton, sites]
      exact candidatesFrom_nil
  | .literal _ _, _ => by
      rw [candidatesFrom_singleton, sites]
      exact candidatesFrom_nil
  | .unknown params parts children members, scope => by
      rw [candidatesFrom_singleton, sites]
      simp only [visit, candidatesFrom_append, candidatesFrom_within_eq_sites params,
        candidatesFrom_within_eq_sites parts, candidatesFrom_within_eq_sites children,
        candidatesFrom_within_eq_sites members, List.map_append]
      rfl

theorem candidatesFrom_within_eq_sites : ∀ (nodes : List Node) (scope : Scope),
    candidatesFrom (within scope nodes) = (sitesOfAll nodes).map (Site.met scope)
  | [], _ => candidatesFrom_nil
  | node :: nodes, scope => by
      have hsplit : candidatesFrom (within scope (node :: nodes)) =
          candidatesFrom [(node, scope)] ++ candidatesFrom (within scope nodes) :=
        candidatesFrom_append [(node, scope)] (within scope nodes)
      rw [hsplit, sitesOfAll, List.map_append, candidatesFrom_eq_sites node,
        candidatesFrom_within_eq_sites nodes]

theorem candidatesFrom_toList_eq_sites : ∀ (inverse : Option Node) (scope : Scope),
    candidatesFrom (within scope inverse.toList) = (sitesOfOption inverse).map (Site.met scope)
  | none, _ => candidatesFrom_nil
  | some node, scope => candidatesFrom_eq_sites node scope

end

end Node

/-! ## Visible sites -/

theorem Classification.isPlainTag_eq_false_iff {path : String} :
    Classification.isPlainTag path = false ↔
      ∀ c ∈ path.toList.head?, Text.isLowercase c = false ∧ c ≠ ':' := by
  unfold Classification.isPlainTag
  cases path.toList with
  | nil => simp
  | cons c rest => simp

/-- In a scope a candidate has a usage if it can name something invoked and the
scope does not bind its head. -/
theorem Candidate.usage?_eq (candidate : Candidate) (scope : Scope) :
    candidate.usage? scope =
      if candidate.NamesInvocable ∧ scope.binds candidate.head = false then some candidate.usage
      else none := by
  obtain ⟨path, context, form, location⟩ := candidate
  unfold usage? Usage.ofPath? Classification.ofPath
  -- the tests come in this order: the path itself, the scope, the first character of a tag
  split
  · rename_i hpath
    rw [if_neg]
    · rfl
    · rintro ⟨⟨hne, hat, -⟩, -⟩
      simp [hne, hat] at hpath
  · rename_i hpath
    simp only [Bool.or_eq_true, String.isEmpty_iff, beq_iff_eq, not_or] at hpath
    split
    · rename_i hbinds
      rw [if_neg]
      · rfl
      · rintro ⟨-, hfree⟩
        simp [head, hbinds] at hfree
    · rename_i hbinds
      rw [Bool.not_eq_true] at hbinds
      cases context with
      | curlyPath =>
          dsimp only
          rw [if_pos ⟨⟨hpath.1, hpath.2, nofun⟩, hbinds⟩]
          rfl
      | tagName =>
          dsimp only
          split
          · rename_i hplain
            rw [if_neg]
            · rfl
            · rintro ⟨⟨-, -, htag⟩, -⟩
              rw [Classification.isPlainTag_eq_false_iff.2 (htag rfl)] at hplain
              cases hplain
          · rename_i hplain
            rw [Bool.not_eq_true, Classification.isPlainTag_eq_false_iff] at hplain
            rw [if_pos ⟨⟨hpath.1, hpath.2, fun _ => hplain⟩, hbinds⟩]
            rfl

/-- In the scope carried to a site its candidate has a usage exactly if the site is visible. -/
theorem Site.usage?_scopeIn (scope : Scope) (site : Site) :
    site.candidate.usage? (site.scopeIn scope) =
      if site.Visible scope then some site.usage else none := by
  have hfree : (site.scopeIn scope).binds site.candidate.head = false ↔
      scope.binds site.candidate.head = false ∧
        ∀ names ∈ site.declared, site.candidate.head ∉ names := by
    rw [← Bool.not_eq_true, Site.scopeIn, Scope.binds_foldl_push_iff, not_or, Bool.not_eq_true]
    simp
  rw [Candidate.usage?_eq]
  simp only [hfree]
  rfl

namespace Node

/-- The usages of a tree are those of its visible sites, in order. -/
theorem collect_eq_map_filter_sites (node : Node) (scope : Scope) :
    node.collect scope = (node.sites.filter (·.Visible scope)).map Site.usage := by
  rw [collect, collectFrom_eq_candidates, candidatesFrom_eq_sites, List.filterMap_map]
  -- of any list of sites, those with a usage in the scope carried to them are the visible ones
  induction node.sites with
  | nil => rfl
  | cons site rest ih =>
      have hsite := Site.usage?_scopeIn scope site
      by_cases hvisible : site.Visible scope
      · rw [if_pos hvisible] at hsite
        rw [List.filterMap_cons_some (by exact hsite), ih, List.filter_cons_of_pos (by simpa),
          List.map_cons]
      · rw [if_neg hvisible] at hsite
        rw [List.filterMap_cons_none (by exact hsite), ih, List.filter_cons_of_neg (by simpa)]

/-- The depth of the scope carried to each candidate counts the declarations around it. -/
theorem depth_visited_eq (node : Node) (scope : Scope) :
    (node.visited scope).filterMap
        (fun item => item.1.candidate?.map fun candidate => (candidate, item.2.depth)) =
      node.sites.map fun site =>
        (site.candidate, scope.depth + site.declared.countP (· ≠ [])) := by
  -- of each scope carried along only the depth is kept
  have hsites := congrArg (List.map fun met : Candidate × Scope => (met.1, met.2.depth))
    (candidatesFrom_eq_sites node scope)
  rw [candidatesFrom, List.map_filterMap, List.map_map] at hsites
  have hdepth (site : Site) : (site.scopeIn scope).depth =
      scope.depth + site.declared.countP (· ≠ []) := Scope.depth_foldl_push site.declared scope
  simp only [scopedCandidate?, Option.map_map, Function.comp_def, Site.met, hdepth] at hsites
  exact hsites

/-- Lexical scoping. The usages of a tree in a scope are, in pre-order, the sites
that are visible, and the scope carried to a site is deeper than the first one by
the number of declarations with a name around the site. Declared names reach the
children of their element and the statements of their body, and neither attributes
and modifiers, nor callee, arguments and inverse of a block, nor what comes after. -/
theorem collect_eq_visible_sites (node : Node) (scope : Scope) :
    node.collect scope = (node.sites.filter (·.Visible scope)).map Site.usage ∧
    (node.visited scope).filterMap
        (fun item => item.1.candidate?.map fun candidate => (candidate, item.2.depth)) =
      (node.sites.map fun site =>
        (site.candidate, scope.depth + site.declared.countP (· ≠ []))) ∧
    (∀ location tag attributes modifiers params children selfClosing,
      (element location tag attributes modifiers params children selfClosing).collect scope =
        (Usage.ofPath? tag .tagName scope .element location).toList ++
          attributes.flatMap (·.collect scope) ++ modifiers.flatMap (·.collect scope) ++
          children.flatMap (·.collect (scope.push params))) ∧
    (∀ location callee arguments named program inverse,
      (block location callee arguments named program inverse).collect scope =
        (callee.calleeUsage? scope .block location).toList ++ callee.collect scope ++
          arguments.flatMap (·.collect scope) ++ named.collect scope ++ program.collect scope ++
          inverse.toList.flatMap (·.collect scope)) ∧
    (∀ location params statements chained,
      (body location params statements chained).collect scope =
        statements.flatMap (·.collect (scope.push params))) := by
  refine ⟨node.collect_eq_map_filter_sites scope, node.depth_visited_eq scope, ?_, ?_, ?_⟩
  · intro location tag attributes modifiers params children selfClosing
    rw [collect_eq_walk, walk]
    simp only [flatMap_collect_eq_walkAll]
  · intro location callee arguments named program inverse
    rw [collect_eq_walk, walk]
    rw [flatMap_collect_eq_walkAll, flatMap_toList_collect_eq_walkOption, collect_eq_walk callee,
      collect_eq_walk named, collect_eq_walk program]
  · intro location params statements chained
    rw [collect_eq_walk, walk, flatMap_collect_eq_walkAll]

end Node

end TemplateUsage
