import TemplateUsage.Proofs.Grammar.Derivation

set_option autoImplicit false

/-!
# Rules without repetition

A shift-reduce parser works on rules whose right-hand sides are plain rows of symbols.
They come from the productions of the grammar: what stands any number of times is left
out, or it is a list of one or more, which is a category with two rules of its own. Lists
of the same symbol are one category, wherever they stand.

A rule that is not empty is heavier on its right than on its left (`Category.weight_lt`):
to put the left-hand side for the right-hand side makes a row of symbols lighter.
-/

namespace TemplateUsage

namespace Grammar

/-- The productions of a phrase that are no choices. -/
def Nonterminal.forms : Nonterminal → List Production
  | .start => [.start]
  | .text => [.text]
  | .htmlComment => [.htmlComment]
  | .curlyComment => [.curlyComment]
  | .mustache => [.mustache false, .mustache true]
  | .block => [.block false false, .block false true, .block true false, .block true true]
  | .program => [.program]
  | .inverse =>
      [.otherwise, .chained false false, .chained false true, .chained true false,
        .chained true true]
  | .blockParams => [.blockParams]
  | .call => [.call]
  | .pair => [.pair]
  | .atom sort => [.atom sort]
  | .nested => [.nested]
  | .element => [.element, .selfClosing, .void]
  | .tagParts => [.tagParts]
  | .elementBody => [.elementBody]
  | .modifier => [.modifier]
  | .attribute => [.attribute false, .attribute true]
  | .attributeValue => [.unquotedValue, .quotedValue]
  | .attributeText => [.attributeText]
  | .statement | .expression | .tagPart | .quotedPart => []

/-- The productions of a phrase. -/
def Nonterminal.productions (name : Nonterminal) : List Production :=
  name.choices.attach.map (fun part => .choice name part.1 part.2) ++ name.forms

/-- The productions of a phrase are all those that have it on the left. -/
theorem Nonterminal.mem_productions_iff {name : Nonterminal} {production : Production} :
    production ∈ name.productions ↔ production.left = name := by
  constructor
  · intro h
    rcases List.mem_append.1 h with h | h
    · obtain ⟨part, -, rfl⟩ := List.mem_map.1 h
      rfl
    · cases name <;> simp [forms] at h <;> rcases h with rfl | rfl | rfl | rfl | rfl <;> rfl
  · rintro rfl
    cases production with
    | choice whole part mem =>
        exact List.mem_append_left _ (List.mem_map.2 ⟨⟨part, mem⟩, List.mem_attach _ _, rfl⟩)
    | mustache flag | «attribute» flag =>
        apply List.mem_append_right
        cases flag <;> simp [Production.left, forms]
    | block params inverse | chained params inverse =>
        apply List.mem_append_right
        cases params <;> cases inverse <;> simp [Production.left, forms]
    | _ => exact List.mem_append_right _ (by simp [Production.left, forms])

end Grammar

namespace ShiftReduce

open Grammar (Nonterminal)

/-! ## Categories and their rules -/

/-- What a rule has on its left: the whole text, a phrase, or a list of one or more. -/
inductive Category where
  | whole
  | phrase (name : Nonterminal)
  | several (part : Grammar.Symbol)
  deriving DecidableEq, Repr

/-- A kind of token or a category. -/
inductive Symbol where
  | token (kind : Kind)
  | group (category : Category)
  deriving DecidableEq, Repr

/-- A phrase as a symbol. -/
def Symbol.phrase (name : Nonterminal) : Symbol := .group (.phrase name)

/-- A symbol of the grammar among those of the rules. -/
def Symbol.ofGrammar : Grammar.Symbol → Symbol
  | .token kind => .token kind
  | .phrase name => .phrase name

/-- The rows of symbols that items stand for, with a list for what stands any number of
times, or without it. -/
def bodies : List Grammar.Item → List (List Symbol)
  | [] => [[]]
  | .one symbol :: items => (bodies items).map (Symbol.ofGrammar symbol :: ·)
  | .many symbol :: items => (bodies items).map (.group (.several symbol) :: ·) ++ bodies items

/-- The right-hand sides of a category's rules. -/
def Category.rights : Category → List (List Symbol)
  | .whole => [[.phrase .start]]
  | .phrase name => name.productions.flatMap fun production => bodies production.right
  | .several part => [[.ofGrammar part], [.group (.several part), .ofGrammar part]]

/-- The rules of a phrase are those of all its productions. -/
theorem Category.mem_rights_phrase_iff {name : Nonterminal} {body : List Symbol} :
    body ∈ (Category.phrase name).rights ↔
      ∃ production : Grammar.Production,
        production.left = name ∧ body ∈ bodies production.right := by
  simp only [rights, List.mem_flatMap, Nonterminal.mem_productions_iff]

/-- The categories that a text may have. -/
def Category.all : List Category :=
  .whole ::
    [Nonterminal.start, .statement, .text, .htmlComment, .curlyComment, .mustache, .block,
      .program, .inverse, .blockParams, .call, .pair, .expression, .atom .path, .atom .string,
      .atom .number, .atom .boolean, .atom .null, .atom .undefined, .nested, .element, .tagParts,
      .elementBody, .tagPart, .modifier, .attribute, .attributeValue, .quotedPart,
      .attributeText].map .phrase ++
    [Nonterminal.statement, .expression, .pair, .tagPart, .quotedPart].map (.several ∘ .phrase)

/-! ## Weights -/

/-- The weight of a phrase. -/
def nameWeight : Nonterminal → Nat
  | .program | .elementBody | .tagParts | .call => 0
  | .start => 1
  | .expression | .tagPart | .quotedPart => 2
  | .statement | .atom _ | .nested | .pair | .inverse | .blockParams | .attribute | .modifier
  | .attributeText => 3
  | .text | .htmlComment | .curlyComment | .block | .element | .attributeValue => 4
  | .mustache => 5

/-- The weight of a category. -/
def Category.weight : Category → Nat
  | .whole => 0
  | .phrase name => nameWeight name
  | .several (.phrase name) => nameWeight name - 1
  | .several (.token _) => 4

/-- The weight of a symbol; no category is heavier than a token. -/
def Symbol.weight : Symbol → Nat
  | .token _ => 5
  | .group category => category.weight

/-- The weight of a row of symbols. -/
def rowWeight : List Symbol → Nat
  | [] => 0
  | symbol :: row => symbol.weight + rowWeight row

theorem rowWeight_append (front back : List Symbol) :
    rowWeight (front ++ back) = rowWeight front + rowWeight back := by
  induction front with
  | nil => exact (Nat.zero_add _).symm
  | cons symbol front ih => rw [List.cons_append, rowWeight, rowWeight, ih, Nat.add_assoc]

theorem rowWeight_reverse (row : List Symbol) : rowWeight row.reverse = rowWeight row := by
  induction row with
  | nil => rfl
  | cons symbol row ih =>
      rw [List.reverse_cons, rowWeight_append, ih, rowWeight, rowWeight, rowWeight]
      omega

theorem nameWeight_le (name : Nonterminal) : nameWeight name ≤ 5 := by
  cases name <;> simp [nameWeight]

theorem Symbol.weight_le (symbol : Symbol) : symbol.weight ≤ 5 := by
  rcases symbol with kind | (_ | name | (kind | name))
  · exact Nat.le_refl 5
  · exact Nat.zero_le 5
  · exact nameWeight_le name
  · exact Nat.le_succ 4
  · exact Nat.le_trans (Nat.sub_le _ 1) (nameWeight_le name)

/-- A row weighs at most five for each of its symbols. -/
theorem rowWeight_le (row : List Symbol) : rowWeight row ≤ 5 * row.length := by
  induction row with
  | nil => exact Nat.le_refl 0
  | cons symbol row ih =>
      have := symbol.weight_le
      rw [rowWeight, List.length_cons]
      omega

/-- A rule that is not empty is heavier on its right; an empty one has little on its left. -/
theorem Category.weight_lt : ∀ category ∈ Category.all, ∀ body ∈ category.rights,
    category.weight < rowWeight body ∨ body = [] ∧ category.weight ≤ 1 := by
  decide

end ShiftReduce

end TemplateUsage
