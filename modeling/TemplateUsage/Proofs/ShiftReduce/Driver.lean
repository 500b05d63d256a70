import Mathlib.Data.List.Basic
import Mathlib.Logic.Relation
import TemplateUsage.Proofs.ShiftReduce.Automaton
import TemplateUsage.Template

set_option autoImplicit false

/-!
# The driver of a shift-reduce parser

The driver keeps a stack of places. Before what comes next it reduces as long as there is
a reduction: it takes as many places off the stack as the rule has symbols and goes on,
from the place that is then on top, with the category of the rule. Then it shifts the next
token, accepts, or rejects. A reduction fails where the stack is too short or where there
is no place to go to, and the loop is given a budget of iterations.

Neither a failed reduction nor the end of the budget is ever met (`exists_of_reduction`,
`exists_ending`). Every stack of the driver is a path of the automaton (`Linked`), so the
symbols of a complete rule are on top of it. A reduction lowers the potential of the stack,
the weight of its symbols with something more where an empty rule can be reduced; a shift
raises it by at most seven.
-/

namespace TemplateUsage.ShiftReduce

/-! ## The driver -/

/-- The place on top of a stack. Under all others is the beginning of the text. -/
def top : List Place → Place
  | [] => .root
  | place :: _ => place

/-- The stack after one more symbol. -/
def push? (stack : List Place) (symbol : Symbol) : Option (List Place) :=
  ((top stack).next symbol).map (· :: stack)

/-- Why a reduction fails. -/
inductive Defect where
  /-- The rule is longer than the stack is high. -/
  | underflow
  /-- There is no place to go to after the reduction. -/
  | stranded
  deriving DecidableEq, Repr

/-- Takes the symbols of a complete item off the stack and puts its category on it. -/
def reduceBy (stack : List Place) (item : Item) : Except Defect (List Place) :=
  if stack.length < item.read.length then .error .underflow
  else
    match push? (stack.drop item.read.length) (.group item.category) with
    | some next => .ok next
    | none => .error .stranded

/-- The reduction before what comes next, if there is one. -/
def reduce? (stack : List Place) (look : Lookahead) : Option (Except Defect (List Place)) :=
  ((top stack).reduction? look).map (reduceBy stack)

/-- Everything there is an action on. -/
def expected (stack : List Place) : List Lookahead := Lookahead.all.filter (top stack).acts

/-- How the loop of the driver ends. -/
inductive Ending where
  | accepted
  | rejected (rejection : Rejection)
  | defective (defect : Defect)
  deriving DecidableEq, Repr

/-- The loop of the driver on the tokens of a scan that are left, with a budget of
iterations. A fault of the scanner shows when all tokens before it are shifted. -/
def loop (source : String) (scan : Scan) : Nat → List Place → List Token → Option Ending
  | 0, _, _ => none
  | budget + 1, stack, [] =>
      match scan.rejection with
      | some rejection => some (.rejected rejection)
      | none =>
          if top stack = .complete then some .accepted
          else
            match reduce? stack .finish with
            | some (.ok next) => loop source scan budget next []
            | some (.error defect) => some (.defective defect)
            | none =>
                some (.rejected
                  ⟨.unexpectedEnd (expected stack), Template.endSpan source scan.tokens⟩)
  | budget + 1, stack, token :: rest =>
      match reduce? stack (.token token.kind) with
      | some (.ok next) => loop source scan budget next (token :: rest)
      | some (.error defect) => some (.defective defect)
      | none =>
          match push? stack (.token token.kind) with
          | some next => loop source scan budget next rest
          | none =>
              some (.rejected
                ⟨.unexpectedToken token.kind (expected stack), token.lexeme.span⟩)

/-- A loop that ends has a budget for at least one iteration. -/
theorem exists_succ_of_loop {source : String} {scan : Scan} {budget : Nat} {stack : List Place}
    {tokens : List Token} {ending : Ending}
    (h : loop source scan budget stack tokens = some ending) : ∃ left, budget = left + 1 := by
  cases budget with
  | zero =>
      rw [loop] at h
      cases h
  | succ left => exact ⟨left, rfl⟩

/-- One reduction before what comes next. -/
def Reduces (look : Lookahead) (stack next : List Place) : Prop :=
  reduce? stack look = some (.ok next)

/-- Reductions one after the other before what comes next. -/
abbrev Steps (look : Lookahead) : List Place → List Place → Prop :=
  Relation.ReflTransGen (Reduces look)

/-- The stacks the driver comes to on tokens of these kinds. -/
inductive Reaches : List Kind → List Place → Prop where
  | initial : Reaches [] []
  | reduce {kinds : List Kind} {stack next : List Place} {look : Lookahead} :
      Reaches kinds stack → Reduces look stack next → Reaches kinds next
  | shift {kinds : List Kind} {kind : Kind} {stack next : List Place} :
      Reaches kinds stack → reduce? stack (.token kind) = none →
      push? stack (.token kind) = some next → Reaches (kinds ++ [kind]) next

/-! ## Paths of the automaton -/

/-- The stack is a path of the automaton. -/
inductive Linked : List Place → Prop where
  | nil : Linked []
  | push {stack next : List Place} {symbol : Symbol} :
      Linked stack → push? stack symbol = some next → Linked next

theorem exists_of_push {stack next : List Place} {symbol : Symbol}
    (h : push? stack symbol = some next) :
    ∃ place, (top stack).next symbol = some place ∧ next = place :: stack := by
  obtain ⟨place, hplace, rfl⟩ := Option.map_eq_some_iff.1 h
  exact ⟨place, hplace, rfl⟩

theorem push?_of_next {stack : List Place} {symbol : Symbol} {place : Place}
    (h : (top stack).next symbol = some place) : push? stack symbol = some (place :: stack) := by
  rw [push?, h]
  rfl

theorem Linked.top_mem {stack : List Place} (h : Linked stack) : top stack ∈ Place.all := by
  induction h with
  | nil => exact List.mem_cons_self
  | push _ hpush ih =>
      obtain ⟨place, hplace, rfl⟩ := exists_of_push hpush
      exact Place.mem_all_of_next ih hplace

/-- The symbols of a stack, the latest first. -/
def row (stack : List Place) : List Symbol := stack.filterMap fun place => place.read.getLast?

theorem Linked.row_push {stack next : List Place} {symbol : Symbol} (h : Linked stack)
    (hpush : push? stack symbol = some next) : row next = symbol :: row stack := by
  obtain ⟨place, hplace, rfl⟩ := exists_of_push hpush
  exact List.filterMap_cons_some (Place.reached_of_next h.top_mem hplace).last

theorem row_append (front back : List Place) : row (front ++ back) = row front ++ row back :=
  List.filterMap_append

theorem length_row_le (stack : List Place) : (row stack).length ≤ stack.length :=
  List.length_filterMap_le _ _

/-- What the automaton has read of an item of the top place is on top of the stack, and the
item begins at the place under it. -/
structure Begun (stack : List Place) (item : Item) (popped below : List Place) : Prop where
  stack_eq : stack = popped ++ below
  length_eq : popped.length = item.read.length
  row_eq : row popped = item.read.reverse
  linked : Linked below
  mem : ⟨item.category, [], item.read ++ item.unread⟩ ∈ (top below).items

theorem Begun.of_nil {stack : List Place} (h : Linked stack) {item : Item}
    (hitem : item ∈ (top stack).items) (hread : item.read = []) : Begun stack item [] stack := by
  obtain ⟨category, read, unread⟩ := item
  obtain rfl : read = [] := hread
  exact ⟨rfl, rfl, rfl, h, hitem⟩

/-- Below an item of the place on top stand the places of what is read of it. -/
theorem Linked.begun {stack : List Place} (h : Linked stack) {item : Item}
    (hitem : item ∈ (top stack).items) : ∃ popped below, Begun stack item popped below := by
  -- Induction on the path: the last symbol of the item is the one the top was reached with.
  induction h generalizing item with
  | nil =>
      have hread : item.read = [] := by
        by_contra hread
        have hkernel : item ∈ Place.root.kernel := Place.mem_kernel_of_read hitem hread
        rw [Place.kernel_root, List.mem_singleton] at hkernel
        exact hread (hkernel ▸ rfl)
      exact ⟨[], [], .of_nil .nil hitem hread⟩
  | @push stack next symbol hlinked hpush ih =>
      by_cases hread : item.read = []
      · exact ⟨[], next, .of_nil (.push hlinked hpush) hitem hread⟩
      · obtain ⟨place, hplace, rfl⟩ := exists_of_push hpush
        have hreached := Place.reached_of_next hlinked.top_mem hplace
        obtain ⟨hlast, hback⟩ := hreached.back item (Place.mem_kernel_of_read hitem hread)
        have hsplit : item.read.dropLast ++ [symbol] = item.read :=
          List.dropLast_append_getLast? symbol hlast
        obtain ⟨popped, below, hstack, hlength, hrow, hbelow, hmem⟩ := ih hback
        refine ⟨place :: popped, below, ?_, ?_, ?_, hbelow, ?_⟩
        · rw [List.cons_append, ← hstack]
        · rw [List.length_cons, hlength, ← hsplit]
          simp [Item.back]
        · have hcons : row (place :: popped) = symbol :: row popped :=
            List.filterMap_cons_some hreached.last
          rw [hcons, hrow, ← hsplit]
          simp [Item.back]
        · have hbody : (item.back symbol).read ++ (item.back symbol).unread =
              item.read ++ item.unread := by
            rw [← hsplit]
            simp [Item.back]
          rwa [hbody] at hmem

/-! ## Potential -/

/-- The potential of a stack. -/
def potential (stack : List Place) : Nat :=
  rowWeight (row stack) + if (top stack).gap then 2 else 0

/-- The potential is bounded by the height of the stack. -/
theorem potential_le (stack : List Place) : potential stack ≤ 5 * stack.length + 2 := by
  have hrow := rowWeight_le (row stack)
  have hlength := length_row_le stack
  rw [potential]
  split <;> omega

/-- A symbol adds its weight, and something more only if it is a token. -/
theorem Linked.potential_push {stack next : List Place} {symbol : Symbol} (h : Linked stack)
    (hpush : push? stack symbol = some next) :
    potential next ≤ rowWeight (row stack) + symbol.weight + symbol.slack := by
  rw [potential, h.row_push hpush, rowWeight]
  obtain ⟨place, hplace, rfl⟩ := exists_of_push hpush
  split
  · rename_i hgap
    rw [(Place.reached_of_next h.top_mem hplace).gap hgap]
    omega
  · omega

/-- A token that is shifted adds a bounded amount to the potential. -/
theorem Linked.potential_shift {stack next : List Place} {kind : Kind} (h : Linked stack)
    (hpush : push? stack (.token kind) = some next) : potential next ≤ potential stack + 7 := by
  have hnext : potential next ≤ rowWeight (row stack) + 5 + 2 := h.potential_push hpush
  have hstack : rowWeight (row stack) ≤ potential stack := Nat.le_add_right _ _
  omega

/-! ## Reductions -/

theorem reduces_of_reduction {popped below next : List Place} {look : Lookahead} {item : Item}
    (hitem : (top (popped ++ below)).reduction? look = some item)
    (hlength : popped.length = item.read.length)
    (hpush : push? below (.group item.category) = some next) :
    Reduces look (popped ++ below) next := by
  have hle : ¬ (popped ++ below).length < item.read.length := by
    rw [List.length_append]
    omega
  rw [Reduces, reduce?, hitem, Option.map_some, reduceBy, if_neg hle, ← hlength,
    List.drop_left, hpush]

/-- Every reduction that the table has takes off the stack what is there, and finds a place
to go to. -/
theorem Linked.exists_of_reduction {stack : List Place} (h : Linked stack) {look : Lookahead}
    {item : Item} (hitem : (top stack).reduction? look = some item) :
    ∃ popped below next, Begun stack item popped below ∧
      push? below (.group item.category) = some next ∧ Reduces look stack next := by
  obtain ⟨hmem, -, hwhole⟩ := Place.of_reduction hitem
  obtain ⟨popped, below, hbegun⟩ := h.begun hmem
  obtain ⟨place, hplace⟩ := Option.isSome_iff_exists.1
    (Sound.begun sound _ hbegun.linked.top_mem _ hbegun.mem hwhole rfl)
  have hpush := push?_of_next hplace
  obtain rfl := hbegun.stack_eq
  exact ⟨popped, below, _, hbegun, hpush, reduces_of_reduction hitem hbegun.length_eq hpush⟩

/-- What a reduction does: a rule is on top of the stack, and its category comes for it. -/
theorem Linked.exists_of_reduces {stack next : List Place} {look : Lookahead} (h : Linked stack)
    (hreduce : Reduces look stack next) :
    ∃ item popped below, item ∈ (top stack).items ∧ Begun stack item popped below ∧
      push? below (.group item.category) = some next ∧ item.category ∈ Category.all ∧
      item.read ∈ item.category.rights ∧ item.unread = [] := by
  obtain ⟨item, hitem, -⟩ := Option.map_eq_some_iff.1 hreduce
  obtain ⟨hmem, hunread, -⟩ := Place.of_reduction hitem
  obtain ⟨popped, below, found, hbegun, hpush, hfound⟩ := h.exists_of_reduction hitem
  rw [Reduces] at hreduce hfound
  obtain rfl : found = next := by simpa using hfound.symm.trans hreduce
  have hrule := Sound.rule sound _ h.top_mem item hmem
  rw [hunread, List.append_nil] at hrule
  exact ⟨item, popped, below, hmem, hbegun, hpush, hrule.1, hrule.2, hunread⟩

/-- A reduction lowers the potential. -/
theorem Linked.reduces {stack next : List Place} {look : Lookahead} (h : Linked stack)
    (hreduce : Reduces look stack next) : Linked next ∧ potential next < potential stack := by
  obtain ⟨item, popped, below, hmem, hbegun, hpush, hcategory, hrule, hunread⟩ :=
    h.exists_of_reduces hreduce
  refine ⟨.push hbegun.linked hpush, ?_⟩
  have hnext : potential next ≤ rowWeight (row below) + item.category.weight + 0 :=
    hbegun.linked.potential_push hpush
  have hstack : potential stack = rowWeight item.read + rowWeight (row below) +
      if (top stack).gap then 2 else 0 := by
    rw [potential]
    nth_rewrite 1 [hbegun.stack_eq]
    rw [row_append, hbegun.row_eq, rowWeight_append, rowWeight_reverse]
  rcases Category.weight_lt item.category hcategory item.read hrule with hlt | ⟨hnil, hle⟩
  · omega
  · -- The rule is empty, so something empty can be reduced at the top.
    have hgap : (top stack).gap = true :=
      List.any_eq_true.2 ⟨item, hmem, by simp [hnil, hunread]⟩
    rw [hgap, if_pos rfl] at hstack
    omega

theorem Linked.steps {stack next : List Place} {look : Lookahead} (h : Linked stack)
    (hsteps : Steps look stack next) : Linked next := by
  induction hsteps with
  | refl => exact h
  | tail _ hreduce ih => exact (ih.reduces hreduce).1

/-- Before what comes next there is no reduction or one that succeeds. -/
theorem Linked.reduce_cases {stack : List Place} (h : Linked stack) (look : Lookahead) :
    reduce? stack look = none ∨
      ∃ next, Reduces look stack next ∧ Linked next ∧ potential next < potential stack := by
  cases hitem : (top stack).reduction? look with
  | none => exact .inl (by rw [reduce?, hitem, Option.map_none])
  | some item =>
      obtain ⟨-, -, next, -, -, hreduce⟩ := h.exists_of_reduction hitem
      exact .inr ⟨next, hreduce, h.reduces hreduce⟩

/-- Where a token can be shifted there is no reduction before it. -/
theorem Linked.reduce_eq_none {stack next : List Place} {kind : Kind} (h : Linked stack)
    (hpush : push? stack (.token kind) = some next) : reduce? stack (.token kind) = none := by
  obtain ⟨place, hplace, -⟩ := exists_of_push hpush
  obtain ⟨item, hitem, hhead, -⟩ := Place.exists_item_of_next hplace
  obtain ⟨rest, hunread⟩ := List.head?_eq_some_iff.1 hhead
  have hkind : kind ∈ leadingKind? item.unread := by
    rw [hunread]
    rfl
  rw [reduce?, Sound.shift sound _ h.top_mem item hitem kind hkind, Option.map_none]

theorem Reaches.linked {kinds : List Kind} {stack : List Place} (h : Reaches kinds stack) :
    Linked stack := by
  induction h with
  | initial => exact .nil
  | reduce _ hreduce ih => exact (ih.reduces hreduce).1
  | shift _ _ hpush ih => exact .push ih hpush

/-- Reductions one after the other are at most as many as the potential. -/
theorem Linked.length_le_potential {look : Lookahead} {stack : List Place} (h : Linked stack)
    {chain : List (List Place)} (hchain : (stack :: chain).IsChain (Reduces look)) :
    chain.length ≤ potential stack := by
  induction chain generalizing stack with
  | nil => exact Nat.zero_le _
  | cons next rest ih =>
      rw [List.isChain_cons_cons] at hchain
      obtain ⟨hlinked, hlt⟩ := h.reduces hchain.1
      have := ih hlinked hchain.2
      rw [List.length_cons]
      omega

/-- After some reductions there are no more. -/
theorem Linked.exists_settled {stack : List Place} (h : Linked stack) (look : Lookahead) :
    ∃ settled, Steps look stack settled ∧ reduce? settled look = none := by
  induction hpotential : potential stack using Nat.strongRecOn generalizing stack with
  | ind n ih =>
      rcases h.reduce_cases look with hnone | ⟨next, hreduce, hlinked, hlt⟩
      · exact ⟨stack, .refl, hnone⟩
      · obtain ⟨settled, hsteps, hsettled⟩ := ih _ (hpotential ▸ hlt) hlinked rfl
        exact ⟨settled, .head hreduce hsteps, hsettled⟩

/-! ## The loop -/

section Loop

variable {source : String} {scan : Scan}

/-- Eight iterations for each token and a few more are enough for the loop to end, and no
reduction in it fails. -/
theorem exists_ending {stack : List Place} {tokens : List Token} {budget : Nat} (h : Linked stack)
    (hbudget : potential stack + 8 * tokens.length < budget) :
    ∃ ending, loop source scan budget stack tokens = some ending ∧
      ∀ defect, ending ≠ .defective defect := by
  induction budget generalizing stack tokens with
  | zero => omega
  | succ budget ih =>
      cases tokens with
      | nil =>
          rw [loop]
          split
          · exact ⟨_, rfl, nofun⟩
          · split
            · exact ⟨_, rfl, nofun⟩
            · rcases h.reduce_cases .finish with hnone | ⟨next, hreduce, hlinked, hlt⟩
              · rw [hnone]
                exact ⟨_, rfl, nofun⟩
              · rw [Reduces] at hreduce
                rw [hreduce]
                exact ih hlinked (by omega)
      | cons token rest =>
          rw [loop]
          rw [List.length_cons] at hbudget
          rcases h.reduce_cases (.token token.kind) with hnone | ⟨next, hreduce, hlinked, hlt⟩
          · rw [hnone]
            cases hpush : push? stack (.token token.kind) with
            | none => exact ⟨_, rfl, nofun⟩
            | some next =>
                have := h.potential_shift hpush
                exact ih (.push h hpush) (by omega)
          · rw [Reduces] at hreduce
            rw [hreduce]
            exact ih hlinked (by rw [List.length_cons]; omega)

/-- What comes next of some tokens. -/
def nextLook : List Token → Lookahead
  | [] => .finish
  | token :: _ => .token token.kind

/-- The loop goes through the reductions before what comes next. -/
theorem loop_of_reduces {stack next : List Place} {tokens : List Token} {budget : Nat}
    {ending : Ending} (h : loop source scan budget stack tokens = some ending)
    (hfault : tokens = [] → scan.rejection = none)
    (hreduce : Reduces (nextLook tokens) stack next) :
    ∃ left, loop source scan left next tokens = some ending := by
  have hcomplete : top stack ≠ .complete := by
    intro htop
    have hnone : ∀ look, Place.complete.reduction? look = none := by
      intro look
      rw [Place.reduction?, Place.items_complete]
      rfl
    rw [Reduces, reduce?, htop, hnone] at hreduce
    cases hreduce
  rw [Reduces] at hreduce
  obtain ⟨left, rfl⟩ := exists_succ_of_loop h
  cases tokens with
  | nil =>
      rw [loop, hfault rfl] at h
      simp only [if_neg hcomplete] at h
      rw [show reduce? stack .finish = some (.ok next) from hreduce] at h
      exact ⟨left, h⟩
  | cons token rest =>
      rw [loop, show reduce? stack (.token token.kind) = some (.ok next) from hreduce] at h
      exact ⟨left, h⟩

/-- The loop goes on after reductions. -/
theorem loop_of_steps {stack next : List Place} {tokens : List Token} {budget : Nat}
    {ending : Ending} (h : loop source scan budget stack tokens = some ending)
    (hfault : tokens = [] → scan.rejection = none)
    (hsteps : Steps (nextLook tokens) stack next) :
    ∃ left, loop source scan left next tokens = some ending := by
  induction hsteps with
  | refl => exact ⟨budget, h⟩
  | tail _ hreduce ih =>
      obtain ⟨left, hleft⟩ := ih
      exact loop_of_reduces hleft hfault hreduce

/-! ### Iterations without a reduction -/

variable {stack : List Place} {budget : Nat} {ending : Ending}

theorem loop_of_push {next : List Place} {token : Token} {rest : List Token}
    (h : loop source scan budget stack (token :: rest) = some ending)
    (hreduce : reduce? stack (.token token.kind) = none)
    (hpush : push? stack (.token token.kind) = some next) :
    ∃ left, loop source scan left next rest = some ending := by
  obtain ⟨left, rfl⟩ := exists_succ_of_loop h
  rw [loop, hreduce, hpush] at h
  exact ⟨left, h⟩

/-- Where there is nothing to reduce and nothing to shift, the token is refused. -/
theorem ending_of_refusal {token : Token} {rest : List Token}
    (h : loop source scan budget stack (token :: rest) = some ending)
    (hreduce : reduce? stack (.token token.kind) = none)
    (hpush : push? stack (.token token.kind) = none) :
    ending = .rejected ⟨.unexpectedToken token.kind (expected stack), token.lexeme.span⟩ := by
  obtain ⟨left, rfl⟩ := exists_succ_of_loop h
  rw [loop, hreduce, hpush] at h
  exact (Option.some.inj h).symm

theorem ending_of_fault {rejection : Rejection}
    (h : loop source scan budget stack [] = some ending)
    (hfault : scan.rejection = some rejection) : ending = .rejected rejection := by
  obtain ⟨left, rfl⟩ := exists_succ_of_loop h
  rw [loop, hfault] at h
  exact (Option.some.inj h).symm

theorem ending_of_complete (h : loop source scan budget stack [] = some ending)
    (hfault : scan.rejection = none) (htop : top stack = .complete) : ending = .accepted := by
  obtain ⟨left, rfl⟩ := exists_succ_of_loop h
  simp only [loop, hfault, if_pos htop] at h
  exact (Option.some.inj h).symm

theorem ending_of_stop (h : loop source scan budget stack [] = some ending)
    (hfault : scan.rejection = none) (htop : top stack ≠ .complete)
    (hreduce : reduce? stack .finish = none) :
    ending =
      .rejected ⟨.unexpectedEnd (expected stack), Template.endSpan source scan.tokens⟩ := by
  obtain ⟨left, rfl⟩ := exists_succ_of_loop h
  simp only [loop, hfault, if_neg htop, hreduce] at h
  exact (Option.some.inj h).symm

end Loop

end TemplateUsage.ShiftReduce
