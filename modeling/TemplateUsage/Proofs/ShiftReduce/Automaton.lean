import Mathlib.Data.List.Infix
import TemplateUsage.Proofs.ShiftReduce.Rules
import TemplateUsage.Recogniser.Action

set_option autoImplicit false

/-!
# The automaton of a shift-reduce parser

A state of the automaton is a set of items, rules read up to some symbol. The items that
were begun before the state fix it, and of these one is enough: a state has the category
and the symbols read of that item for a name (`Place`). From a place the automaton goes on
with a symbol that an item has next (`Place.next`), and before what comes next it reduces
a rule that is complete (`Place.reduction?`).

The tables are finite, and what they have to be like is checked of all places: where the
items of a place come from and go to (`Place.Reached`), and that nothing is both shifted and
reduced before (`Sound`).
-/

namespace TemplateUsage.ShiftReduce

open Grammar (Nonterminal)
open Recogniser

/-! ## Items and places -/

/-- A rule with the symbols before and after the place it is read up to. -/
structure Item where
  category : Category
  read : List Symbol
  unread : List Symbol
  deriving DecidableEq, Repr

/-- The category that a row of symbols begins with. -/
def leading? : List Symbol → Option Category
  | .group category :: _ => some category
  | _ => none

/-- A state of the automaton, named by a rule and what is read of it. -/
structure Place where
  category : Category
  read : List Symbol
  deriving DecidableEq, Repr

/-- What is left of a row of symbols after its first ones. -/
def remainder? : List Symbol → List Symbol → Option (List Symbol)
  | [], row => some row
  | _ :: _, [] => none
  | symbol :: front, other :: row => if symbol = other then remainder? front row else none

/-- The items of a place that were begun before it. After a list, the list may go on. -/
def Place.kernel (place : Place) : List Item :=
  (place.category.rights.filterMap fun body =>
    (remainder? place.read body).map (⟨place.category, place.read, ·⟩)) ++
  match place.read.getLast? with
  | some (.group (.several part)) =>
      [⟨.several part, [.group (.several part)], [.ofGrammar part]⟩]
  | _ => []

/-- Categories that a rule of the category begins with. -/
def Category.openers (category : Category) : List Category :=
  (category.rights.filterMap leading?).filter (· ≠ category)

/-- Categories that begin where the category begins, through so many rules. -/
def Category.corners : Nat → Category → List Category
  | 0, category => [category]
  | depth + 1, category => category :: category.openers.flatMap (corners depth)

/-- Rules begin with one another through at most this many. -/
def cornerDepth : Nat := 4

/-- The items of a place: those begun before it, and those that begin at it. -/
def Place.items (place : Place) : List Item :=
  place.kernel ++
    ((place.kernel.filterMap (leading? ·.unread)).eraseDups.flatMap
      (Category.corners cornerDepth)).flatMap
        fun category => category.rights.map (⟨category, [], ·⟩)

/-- Where the automaton goes from a place with a symbol. -/
def Place.next (place : Place) (symbol : Symbol) : Option Place :=
  (place.items.find? fun item => item.unread.head? = some symbol).map
    fun item => ⟨item.category, item.read ++ [symbol]⟩

/-- The beginning of a text. -/
def Place.root : Place := ⟨.whole, []⟩

/-- The end of a text. -/
def Place.complete : Place := ⟨.whole, [.phrase .start]⟩

/-- All places. A list that goes on has the name of the rule it stands in. -/
def Place.all : List Place :=
  .root :: (Category.all.flatMap fun category =>
    (category.rights.flatMap fun body =>
      (List.range body.length).map fun i => Place.mk category (body.take (i + 1))).eraseDups).filter
        fun place => place.read ≠ [.group place.category]

/-! ## Lookahead -/

/-- What a statement is reduced before. -/
def statementLooks : List Lookahead := .finish :: (statementStarts ++ contentEnds).map .token

/-- What an expression is reduced before. -/
def expressionLooks : List Lookahead := (expressionStarts ++ .hashKey :: callEnds).map .token

/-- What a part of a tag is reduced before. -/
def tagPartLooks : List Lookahead := (tagPartStarts ++ tagEnds).map .token

/-- What a part of a quoted value is reduced before. -/
def quotedPartLooks : List Lookahead :=
  [.token .attributeText, .token .openCurly, .token .openTriple, .token .quoteClose]

/-- What a phrase is reduced before. -/
def nameLooks : Nonterminal → List Lookahead
  | .start => [.finish]
  | .statement | .text | .htmlComment | .block | .element => statementLooks
  | .curlyComment => statementLooks ++ tagPartLooks
  | .mustache => statementLooks ++ tagPartLooks ++ quotedPartLooks
  | .program => [.token .openEndBlock, .token .openElse]
  | .inverse => [.token .openEndBlock]
  | .blockParams => .token .closeCurly :: tagPartLooks
  | .call => callEnds.map .token
  | .pair => (.hashKey :: callEnds).map .token
  | .expression | .atom _ | .nested => expressionLooks
  | .tagParts => tagEnds.map .token
  | .elementBody => [.token .endTag]
  | .tagPart | .modifier | .attribute | .attributeValue => tagPartLooks
  | .quotedPart | .attributeText => quotedPartLooks

/-- What a category is reduced before. -/
def Category.looks : Category → List Lookahead
  | .whole => [.finish]
  | .several (.token _) => []
  | .phrase name | .several (.phrase name) => nameLooks name

/-- The beginning of a plain else, whose empty program only ends a block. -/
def Place.plainElse : Place := ⟨.phrase .inverse, [.token .openElse, .token .closeCurly]⟩

/-- What a category is reduced before at a place. -/
def Place.looks (place : Place) (category : Category) : List Lookahead :=
  if place = .plainElse then [.token .openEndBlock] else category.looks

/-- The item that is reduced at a place before what comes next. -/
def Place.reduction? (place : Place) (look : Lookahead) : Option Item :=
  place.items.find? fun item =>
    item.unread.isEmpty && item.category != .whole && (place.looks item.category).contains look

/-- Whether there is an action at a place on what comes next. -/
def Place.acts (place : Place) (look : Lookahead) : Bool :=
  (place.reduction? look).isSome ||
    match look with
    | .token kind => (place.next (.token kind)).isSome
    | .finish => place == .complete

/-! ## The tables -/

/-- The kind of token that a row of symbols begins with. -/
def leadingKind? : List Symbol → Option Kind
  | .token kind :: _ => some kind
  | _ => none

/-- Whether something empty can be reduced at a place. -/
def Place.gap (place : Place) : Bool :=
  place.items.any fun item => item.read.isEmpty && item.unread.isEmpty

/-- The item before its last symbol was read. -/
def Item.back (item : Item) (symbol : Symbol) : Item :=
  ⟨item.category, item.read.dropLast, symbol :: item.unread⟩

/-- What a symbol adds to the potential of a stack beside its weight. -/
def Symbol.slack : Symbol → Nat
  | .token _ => 2
  | .group _ => 0

/-- The place reached with a symbol has its begun items from the place before, where they
are one symbol shorter. It has not the name of a list that goes on, and after a category
nothing empty can be reduced. -/
structure Place.Reached (place : Place) (symbol : Symbol) (next : Place) : Prop where
  last : next.read.getLast? = some symbol
  back : ∀ item ∈ next.kernel, item.read.getLast? = some symbol ∧ item.back symbol ∈ place.items
  name : next.read ≠ [.group next.category]
  gap : next.gap = true → symbol.slack = 2

instance (place : Place) (symbol : Symbol) (next : Place) :
    Decidable (place.Reached symbol next) :=
  decidable_of_iff (next.read.getLast? = some symbol ∧
      (∀ item ∈ next.kernel,
        item.read.getLast? = some symbol ∧ item.back symbol ∈ place.items) ∧
      next.read ≠ [.group next.category] ∧ (next.gap = true → symbol.slack = 2))
    ⟨fun ⟨last, back, name, gap⟩ => ⟨last, back, name, gap⟩,
      fun ⟨last, back, name, gap⟩ => ⟨last, back, name, gap⟩⟩

/-- What the tables are like at all places. -/
structure Sound : Prop where
  /-- Every item is that of a rule. -/
  rule : ∀ place ∈ Place.all, ∀ item ∈ place.items,
    item.category ∈ Category.all ∧ item.read ++ item.unread ∈ item.category.rights
  /-- Every symbol that an item has next leads to a place as it should, where it is read. -/
  reached : ∀ place ∈ Place.all, ∀ item ∈ place.items, ∀ symbol ∈ item.unread.head?,
    ∃ next ∈ place.next symbol, place.Reached symbol next ∧
      ⟨item.category, item.read ++ [symbol], item.unread.tail⟩ ∈ next.kernel
  /-- Where a category begins the automaton can go on with it. -/
  begun : ∀ place ∈ Place.all, ∀ item ∈ place.items, item.category ≠ .whole → item.read = [] →
    (place.next (.group item.category)).isSome = true
  /-- Nothing is reduced before a token that can be shifted. -/
  shift : ∀ place ∈ Place.all, ∀ item ∈ place.items, ∀ kind ∈ leadingKind? item.unread,
    place.reduction? (.token kind) = none

theorem sound : Sound := by
  constructor <;> decide +kernel

/-! ## Items of a place -/

/-- At the beginning of a text all of it is unread. -/
theorem Place.kernel_root : Place.root.kernel = [⟨.whole, [], [.phrase .start]⟩] := rfl

/-- At the end of a text nothing is unread, and nothing begins. -/
theorem Place.items_complete : Place.complete.items = [⟨.whole, [.phrase .start], []⟩] := rfl

/-- An item that begins at a place has nothing read. -/
theorem Place.mem_kernel_of_read {place : Place} {item : Item} (hitem : item ∈ place.items)
    (hread : item.read ≠ []) : item ∈ place.kernel := by
  rcases List.mem_append.1 hitem with hitem | hitem
  · exact hitem
  · obtain ⟨category, -, hitem⟩ := List.mem_flatMap.1 hitem
    obtain ⟨body, -, rfl⟩ := List.mem_map.1 hitem
    exact absurd rfl hread

theorem Place.exists_item_of_next {place next : Place} {symbol : Symbol}
    (h : place.next symbol = some next) :
    ∃ item ∈ place.items, item.unread.head? = some symbol ∧
      next = ⟨item.category, item.read ++ [symbol]⟩ := by
  obtain ⟨item, hfind, rfl⟩ := Option.map_eq_some_iff.1 h
  have hhead := List.find?_some hfind
  exact ⟨item, List.mem_of_find?_eq_some hfind, of_decide_eq_true hhead, rfl⟩

theorem Place.reached_of_next {place next : Place} {symbol : Symbol} (hplace : place ∈ Place.all)
    (h : place.next symbol = some next) : place.Reached symbol next := by
  obtain ⟨item, hitem, hhead, -⟩ := Place.exists_item_of_next h
  obtain ⟨found, hfound, hreached, -⟩ := Sound.reached sound place hplace item hitem symbol hhead
  obtain rfl : found = next := Option.some.inj (hfound.symm.trans h)
  exact hreached

/-- The automaton goes from places to places. -/
theorem Place.mem_all_of_next {place next : Place} {symbol : Symbol} (hplace : place ∈ Place.all)
    (h : place.next symbol = some next) : next ∈ Place.all := by
  have hname := (Place.reached_of_next hplace h).name
  obtain ⟨item, hitem, hhead, rfl⟩ := Place.exists_item_of_next h
  obtain ⟨rest, hunread⟩ := List.head?_eq_some_iff.1 hhead
  obtain ⟨hcategory, hrule⟩ := Sound.rule sound place hplace item hitem
  rw [hunread] at hrule
  -- The place has the name of the rule that is read, up to the symbol.
  have htake : (item.read ++ symbol :: rest).take (item.read.length + 1) =
      item.read ++ [symbol] :=
    List.take_length_add_append 1
  have hlength : item.read.length < (item.read ++ symbol :: rest).length := by simp
  refine List.mem_cons_of_mem _ (List.mem_filter.2 ⟨?_, decide_eq_true hname⟩)
  refine List.mem_flatMap.2 ⟨item.category, hcategory, List.mem_eraseDups.2 ?_⟩
  refine List.mem_flatMap.2 ⟨_, hrule, List.mem_map.2 ⟨_, List.mem_range.2 hlength, ?_⟩⟩
  rw [htake]

theorem Place.of_reduction {place : Place} {look : Lookahead} {item : Item}
    (h : place.reduction? look = some item) :
    item ∈ place.items ∧ item.unread = [] ∧ item.category ≠ .whole := by
  have hsome := List.find?_some h
  simp only [Bool.and_eq_true, List.isEmpty_iff, bne_iff_ne] at hsome
  exact ⟨List.mem_of_find?_eq_some h, hsome.1.1, hsome.1.2⟩

end TemplateUsage.ShiftReduce
