import TemplateUsage.Usage

set_option autoImplicit false

/-!
# The walk over a tree

`Node.walk` gives the usages of a tree by recursion on the tree: a node's own
usage, then the usages of its children, each in the scope that its branch hands
it. `Walk.pass` is one pass of the loop over a stack of work: it takes the last
item off, notes its usage and puts its children on, last child first.

The usages noted so far, followed by those still below the stack, are the same
before and after a pass, and every pass leaves fewer nodes below the stack. So
the loop ends within as many passes as the tree has nodes, with the usages of the
recursion (`passes_start_eq_walk`), and `Node.collect` computes the same list.
-/

namespace TemplateUsage

namespace Node

/-! ## The walk by recursion -/

mutual

/-- The usages of a tree in a scope. A callee that is a path is a leaf, whose
usage is that of the node it is the callee of. -/
def walk : Node → Scope → List Usage
  | .template _ statements, scope => walkAll statements scope
  | .element location tag attributes modifiers params children _, scope =>
      (Usage.ofPath? tag .tagName scope .element location).toList ++ walkAll attributes scope ++
        walkAll modifiers scope ++ walkAll children (scope.push params)
  | .attribute _ _ value, scope => value.walk scope
  | .text _ _, _ => []
  | .htmlComment _ _, _ => []
  | .curlyComment _ _, _ => []
  | .concat _ parts, scope => walkAll parts scope
  | .invocation location form callee params named, scope =>
      (callee.calleeUsage? scope form.site location).toList ++ callee.walk scope ++
        walkAll params scope ++ named.walk scope
  | .block location callee params named program inverse, scope =>
      (callee.calleeUsage? scope .block location).toList ++ callee.walk scope ++
        walkAll params scope ++ named.walk scope ++ program.walk scope ++
        walkOption inverse scope
  | .body _ params statements _, scope => walkAll statements (scope.push params)
  | .hash _ pairs, scope => walkAll pairs scope
  | .pair _ _ value, scope => value.walk scope
  | .path _ _, _ => []
  | .literal _ _, _ => []
  | .unknown params parts children members, scope =>
      walkAll params scope ++ walkAll parts scope ++ walkAll children scope ++
        walkAll members scope

/-- The usages of a list of trees in one scope. -/
def walkAll : List Node → Scope → List Usage
  | [], _ => []
  | node :: nodes, scope => node.walk scope ++ walkAll nodes scope

/-- The usages of a tree that may be missing. -/
def walkOption : Option Node → Scope → List Usage
  | none, _ => []
  | some node, scope => node.walk scope

end

end Node

/-! ## Usages below a stack -/

theorem collectFrom_nil : collectFrom [] = [] := by
  rw [collectFrom]

theorem collectFrom_cons (node : Node) (scope : Scope) (rest : List WorkItem) :
    collectFrom ((node, scope) :: rest) =
      (node.visit scope).usage.toList ++ collectFrom ((node.visit scope).children ++ rest) := by
  rw [collectFrom]

/-- What lies deeper on the stack is collected after what lies above it. -/
theorem collectFrom_append (stack rest : List WorkItem) :
    collectFrom (stack ++ rest) = collectFrom stack ++ collectFrom rest := by
  fun_induction collectFrom stack with
  | case1 => rfl
  | case2 node scope below visit ih =>
      rw [List.cons_append, collectFrom_cons, List.append_assoc, ← ih, List.append_assoc]

/-- What is below a stack is what is below its items, one after the other. -/
theorem collectFrom_eq_flatMap (stack : List WorkItem) :
    collectFrom stack = stack.flatMap fun item => item.1.collect item.2 := by
  induction stack with
  | nil => exact collectFrom_nil
  | cons item rest ih =>
      have hsplit : collectFrom (item :: rest) = collectFrom [item] ++ collectFrom rest :=
        collectFrom_append [item] rest
      rw [hsplit, ih]
      rfl

/-- Nodes in one scope are collected one after the other. -/
theorem collectFrom_within (scope : Scope) (nodes : List Node) :
    collectFrom (Node.within scope nodes) = nodes.flatMap (Node.collect · scope) := by
  rw [collectFrom_eq_flatMap, Node.within, List.flatMap_map]

namespace Node

/-- A node's own usage comes first, then those of its children in order. -/
theorem collect_eq_visit (node : Node) (scope : Scope) :
    node.collect scope =
      (node.visit scope).usage.toList ++ collectFrom (node.visit scope).children := by
  rw [collect, collectFrom_cons, List.append_nil]

theorem collectFrom_calleeItems (callee : Node) (scope : Scope) :
    collectFrom (calleeItems callee scope) = callee.collect scope := by
  unfold calleeItems
  split
  · -- a path is left off the stack, but visiting it would note nothing
    rw [collect_eq_visit]
    rfl
  · rfl

/-! ## Both walks agree -/

mutual

/-- The loop with a stack collects what the recursive walk lists, node by node. -/
theorem collect_eq_walk : ∀ (node : Node) (scope : Scope), node.collect scope = node.walk scope
  | .template _ statements, scope => by
      rw [collect_eq_visit, walk, ← flatMap_collect_eq_walkAll statements]
      exact collectFrom_within scope statements
  | .element _ _ attributes modifiers params children _, scope => by
      rw [collect_eq_visit, walk, ← flatMap_collect_eq_walkAll attributes,
        ← flatMap_collect_eq_walkAll modifiers, ← flatMap_collect_eq_walkAll children]
      simp only [visit, collectFrom_append, collectFrom_within, List.append_assoc]
  | .attribute _ _ value, scope => by
      rw [collect_eq_visit, walk, ← collect_eq_walk value]
      rfl
  | .text _ _, scope => by
      rw [collect_eq_visit, walk]
      exact collectFrom_nil
  | .htmlComment _ _, scope => by
      rw [collect_eq_visit, walk]
      exact collectFrom_nil
  | .curlyComment _ _, scope => by
      rw [collect_eq_visit, walk]
      exact collectFrom_nil
  | .concat _ parts, scope => by
      rw [collect_eq_visit, walk, ← flatMap_collect_eq_walkAll parts]
      exact collectFrom_within scope parts
  | .invocation _ _ callee params named, scope => by
      rw [collect_eq_visit, walk, ← collect_eq_walk callee, ← flatMap_collect_eq_walkAll params,
        ← collect_eq_walk named]
      simp only [visit, collectFrom_append, collectFrom_within, collectFrom_calleeItems,
        List.append_assoc]
      rfl
  | .block _ callee params named program inverse, scope => by
      rw [collect_eq_visit, walk, ← collect_eq_walk callee, ← flatMap_collect_eq_walkAll params,
        ← collect_eq_walk named, ← collect_eq_walk program,
        ← flatMap_toList_collect_eq_walkOption inverse]
      -- the hash and the program stand on the stack as one list of two items
      have hpair : collectFrom [(named, scope), (program, scope)] =
          named.collect scope ++ program.collect scope :=
        collectFrom_append [(named, scope)] [(program, scope)]
      simp only [visit, collectFrom_append, collectFrom_within, collectFrom_calleeItems, hpair,
        List.append_assoc]
  | .body _ params statements _, scope => by
      rw [collect_eq_visit, walk, ← flatMap_collect_eq_walkAll statements]
      exact collectFrom_within (scope.push params) statements
  | .hash _ pairs, scope => by
      rw [collect_eq_visit, walk, ← flatMap_collect_eq_walkAll pairs]
      exact collectFrom_within scope pairs
  | .pair _ _ value, scope => by
      rw [collect_eq_visit, walk, ← collect_eq_walk value]
      rfl
  | .path _ _, scope => by
      rw [collect_eq_visit, walk]
      exact collectFrom_nil
  | .literal _ _, scope => by
      rw [collect_eq_visit, walk]
      exact collectFrom_nil
  | .unknown params parts children members, scope => by
      rw [collect_eq_visit, walk, ← flatMap_collect_eq_walkAll params,
        ← flatMap_collect_eq_walkAll parts, ← flatMap_collect_eq_walkAll children,
        ← flatMap_collect_eq_walkAll members]
      simp only [visit, collectFrom_append, collectFrom_within, List.append_assoc]
      rfl

theorem flatMap_collect_eq_walkAll : ∀ (nodes : List Node) (scope : Scope),
    nodes.flatMap (Node.collect · scope) = walkAll nodes scope
  | [], _ => rfl
  | node :: nodes, scope => by
      rw [List.flatMap_cons, walkAll, collect_eq_walk node, flatMap_collect_eq_walkAll nodes]

theorem flatMap_toList_collect_eq_walkOption : ∀ (inverse : Option Node) (scope : Scope),
    inverse.toList.flatMap (Node.collect · scope) = walkOption inverse scope
  | none, _ => rfl
  | some node, scope => by
      rw [walkOption, ← collect_eq_walk node]
      exact List.append_nil _

end

end Node

/-! ## The loop -/

/-- Where the loop stands: the work still to do, last item next, and the usages noted so far. -/
structure Walk where
  stack : List WorkItem
  usages : List Usage

namespace Walk

/-- Before the first pass only the tree itself is to be visited. -/
def start (node : Node) (scope : Scope) : Walk := ⟨[(node, scope)], []⟩

/-- One pass of the loop; with nothing on the stack the loop has ended. -/
def pass (walk : Walk) : Walk :=
  match walk.stack.getLast? with
  | none => walk
  | some (node, scope) =>
      let visit := node.visit scope
      ⟨walk.stack.dropLast ++ visit.children.reverse, walk.usages ++ visit.usage.toList⟩

/-- A number of passes, one after the other. -/
def passes : Nat → Walk → Walk
  | 0, walk => walk
  | n + 1, walk => passes n walk.pass

/-- The usages noted so far and those still below the stack. -/
def total (walk : Walk) : List Usage := walk.usages ++ collectFrom walk.stack.reverse

/-- The number of nodes still below the stack. -/
def remaining (walk : Walk) : Nat := Node.pending walk.stack.reverse

/-- A pass takes the last item off the stack and puts its children on. -/
theorem pass_eq (rest : List WorkItem) (node : Node) (scope : Scope) (usages : List Usage) :
    pass ⟨rest ++ [(node, scope)], usages⟩ =
      ⟨rest ++ (node.visit scope).children.reverse,
        usages ++ (node.visit scope).usage.toList⟩ := by
  simp [pass]

/-- A pass leaves the usages, noted and still to come, as they are together. -/
theorem total_pass (walk : Walk) : walk.pass.total = walk.total := by
  obtain ⟨stack, usages⟩ := walk
  rcases List.eq_nil_or_concat stack with rfl | ⟨rest, ⟨node, scope⟩, rfl⟩
  · rfl
  · -- what the pass notes comes first among what was below the item it takes off
    rw [List.concat_eq_append, pass_eq]
    simp only [total, List.reverse_append, List.reverse_reverse, List.reverse_singleton,
      List.singleton_append, collectFrom_cons, List.append_assoc]

/-- Each pass over a stack that is not empty leaves fewer nodes to visit. -/
theorem remaining_pass_lt (walk : Walk) (hne : walk.stack ≠ []) :
    walk.pass.remaining < walk.remaining := by
  obtain ⟨stack, usages⟩ := walk
  rcases List.eq_nil_or_concat stack with rfl | ⟨rest, ⟨node, scope⟩, rfl⟩
  · exact absurd rfl hne
  · have hvisit := Node.pending_visit_lt node scope
    rw [List.concat_eq_append, pass_eq]
    simp only [remaining, List.reverse_append, List.reverse_reverse, List.reverse_singleton,
      List.singleton_append, Node.pending, Node.pending_append]
    omega

theorem passes_of_stack_nil (n : Nat) (usages : List Usage) :
    passes n ⟨[], usages⟩ = ⟨[], usages⟩ := by
  induction n with
  | zero => rfl
  | succ n ih => exact ih

/-- As many passes as there are nodes below the stack empty it and note every usage. -/
theorem passes_eq_of_remaining_le (n : Nat) (walk : Walk) (hn : walk.remaining ≤ n) :
    passes n walk = ⟨[], walk.total⟩ := by
  induction n generalizing walk with
  | zero =>
      obtain ⟨stack, usages⟩ := walk
      rcases List.eq_nil_or_concat stack with rfl | ⟨rest, item, rfl⟩
      · simp [passes, total, collectFrom_nil]
      · -- an item on the stack has a node below it, which needs a pass
        have hlt := remaining_pass_lt ⟨rest.concat item, usages⟩ (by simp)
        omega
  | succ n ih =>
      obtain ⟨stack, usages⟩ := walk
      rcases List.eq_nil_or_concat stack with rfl | ⟨rest, item, rfl⟩
      · rw [passes_of_stack_nil]
        simp [total, collectFrom_nil]
      · have hlt := remaining_pass_lt ⟨rest.concat item, usages⟩ (by simp)
        have hle : (pass ⟨rest.concat item, usages⟩).remaining ≤ n := by omega
        rw [passes, ih _ hle, total_pass]

theorem total_start (node : Node) (scope : Scope) :
    (start node scope).total = node.collect scope := rfl

theorem remaining_start (node : Node) (scope : Scope) :
    (start node scope).remaining = node.count := rfl

/-- From any tree and scope the loop has ended once it made as many passes as the
tree has nodes, and further passes change nothing. The usages it noted, and those
of `Node.collect`, are the usages of the recursion. -/
theorem passes_start_eq_walk (node : Node) (scope : Scope) :
    (∀ more, passes (node.count + more) (start node scope) = ⟨[], node.walk scope⟩) ∧
      node.collect scope = node.walk scope := by
  have hcollect := node.collect_eq_walk scope
  refine ⟨fun more => ?_, hcollect⟩
  have hle : (start node scope).remaining ≤ node.count + more := by
    rw [remaining_start]
    exact Nat.le_add_right _ _
  rw [passes_eq_of_remaining_le _ _ hle, total_start, hcollect]

end Walk

end TemplateUsage
