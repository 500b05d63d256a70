import TemplateUsage.Proofs.Recogniser.Expectation
import TemplateUsage.Proofs.ShiftReduce.Driver

set_option autoImplicit false

/-!
# The stack of a position

Where the recogniser stands between phrases, the stack of the driver can be told from the
position (`positionStack`): each phrase that is not complete has on the stack a place for
every symbol that is read of it, and a list one place for all its parts. After a token the
driver may still have reductions to make that the recogniser has made already, the same
before everything there is an action on (`Lags`).
-/

namespace TemplateUsage.ShiftReduce

open Grammar (Nonterminal)
open Recogniser

/-! ## Places inside phrases -/

/-- A list of one or more phrases as a symbol. -/
def Symbol.several (name : Nonterminal) : Symbol := .group (.several (.phrase name))

/-- The place inside a phrase after these symbols. -/
def Place.inside (name : Nonterminal) (read : List Symbol) : Place := ⟨.phrase name, read⟩

/-- At the place the phrase begins with the symbol. -/
def Place.Begins (place : Place) (symbol : Symbol) (name : Nonterminal) : Prop :=
  place.next symbol = some (.inside name [symbol])

instance (place : Place) (symbol : Symbol) (name : Nonterminal) :
    Decidable (place.Begins symbol name) :=
  inferInstanceAs (Decidable (_ = _))

/-- The place after one more symbol of the same phrase. -/
def Place.extend (place : Place) (symbol : Symbol) : Place :=
  ⟨place.category, place.read ++ [symbol]⟩

/-- The stack with a place for each of the symbols, the earliest first, read of a phrase. -/
def climb (name : Nonterminal) (read : List Symbol) (base : List Place) : List Place :=
  ((List.range read.length).map fun i => Place.inside name (read.take (i + 1))).reverse ++ base

theorem climb_concat (name : Nonterminal) (read : List Symbol) (symbol : Symbol)
    (base : List Place) :
    climb name (read ++ [symbol]) base =
      .inside name (read ++ [symbol]) :: climb name read base := by
  have hearlier : ((List.range read.length).map fun i =>
        Place.inside name ((read ++ [symbol]).take (i + 1))) =
      (List.range read.length).map fun i => Place.inside name (read.take (i + 1)) := by
    refine List.map_congr_left fun i hi => ?_
    rw [List.take_append_of_le_length (List.mem_range.1 hi)]
  rw [climb, List.length_append, List.length_singleton, List.range_succ, List.map_append,
    hearlier, List.reverse_append, List.map_singleton, List.reverse_singleton, List.append_assoc,
    List.take_of_length_le (by simp)]
  rfl

theorem climb_of_ne_nil (name : Nonterminal) {read : List Symbol} (h : read ≠ [])
    (base : List Place) :
    climb name read base = .inside name read :: climb name read.dropLast base := by
  have hconcat := climb_concat name read.dropLast (read.getLast h) base
  rwa [List.dropLast_append_getLast h] at hconcat

/-- After the first symbol of a phrase the place on top is inside the phrase. -/
theorem top_climb (name : Nonterminal) {read : List Symbol} (h : read ≠ []) (base : List Place) :
    top (climb name read base) = .inside name read := by
  rw [climb_of_ne_nil name h]
  rfl

theorem length_climb (name : Nonterminal) (read : List Symbol) (base : List Place) :
    (climb name read base).length = read.length + base.length := by
  simp [climb]

/-- Taking the symbols of a phrase off again leads back to where it began. -/
theorem drop_climb (name : Nonterminal) (read : List Symbol) (base : List Place) :
    (climb name read base).drop read.length = base :=
  List.drop_left' (by simp)

/-- The stack with a list on it, if the list is begun. -/
def listed (list : Place) (begun : Bool) (base : List Place) : List Place :=
  if begun then list :: base else base

/-! ## What statements stand in -/

/-- What statements may stand in, as far as the automaton is concerned. -/
inductive Ground where
  | whole
  | element
  /-- The program of a section, of a block or of a chained else, with block parameters or
  without. -/
  | branch (chained params : Bool)
  | otherwise
  deriving DecidableEq, Repr

namespace Ground

/-- Everything that statements may stand in. -/
def all : List Ground :=
  [.whole, .element, .branch false false, .branch false true, .branch true false,
    .branch true true, .otherwise]

theorem mem_all (ground : Ground) : ground ∈ all := by
  rcases ground with _ | _ | ⟨chained, params⟩ | _
  · decide
  · decide
  · cases chained <;> cases params <;> decide
  · decide

end Ground

/-- The phrase that a head belongs to. -/
def headName (chained : Bool) : Nonterminal := if chained then .inverse else .block

/-- The kind of token that opens a head. -/
def headOpening (chained : Bool) : Kind := if chained then .openElse else .openBlock

/-- What is read of a phrase after its head. -/
def headRead (chained params : Bool) : List Symbol :=
  .token (headOpening chained) :: .phrase .call ::
    ((if params then [.phrase .blockParams] else []) ++ [.token .closeCurly])

namespace Ground

/-- The phrase that the statements stand in. -/
def name : Ground → Nonterminal
  | .whole => .start
  | .element => .element
  | .branch chained _ => headName chained
  | .otherwise => .inverse

/-- What is read of it before the statements. -/
def read : Ground → List Symbol
  | .whole => []
  | .element => [.token .startTag, .phrase .tagParts, .token .tagEnd]
  | .branch chained params => headRead chained params
  | .otherwise => [.token .openElse, .token .closeCurly]

/-- What all the statements make. -/
def body : Ground → Nonterminal
  | .whole => .start
  | .element => .elementBody
  | .branch _ _ | .otherwise => .program

/-- The place before the statements. -/
def place : Ground → Place
  | .whole => .root
  | ground => .inside ground.name ground.read

/-- The place after some statements. -/
def list (ground : Ground) : Place := .inside ground.body [.several .statement]

/-- The place between statements. -/
def spot (ground : Ground) (begun : Bool) : Place := if begun then ground.list else ground.place

/-- What ends the statements. The program of a plain else is not empty before an else. -/
def ends (ground : Ground) (begun : Bool) : List Lookahead :=
  match ground with
  | .whole => [.finish]
  | .element => [.token .endTag]
  | .branch _ _ => [.token .openEndBlock, .token .openElse]
  | .otherwise => .token .openEndBlock :: if begun then [.token .openElse] else []

end Ground

/-! ## Stacks -/

/-- What statements inside the levels stand in. -/
def groundOf : List Level → Ground
  | [] => .whole
  | ⟨.element _ _, _⟩ :: _ => .element
  | ⟨.branch before head, _⟩ :: _ => .branch (!before.isEmpty) head.params.isSome
  | ⟨.otherwise _ _ _ _, _⟩ :: _ => .otherwise

/-- The stack after complete sections, the latest first. -/
def sectionsStack (base : List Place) : List Section → List Place
  | [] => base
  | latest :: before =>
      climb (headName !before.isEmpty)
        (headRead (!before.isEmpty) latest.head.params.isSome ++ [.phrase .program])
        (sectionsStack base before)

/-- The stack at the beginning of an enclosure. -/
def enclosureStack (base : List Place) : Enclosure → List Place
  | .element _ _ => climb .element Ground.element.read base
  | .branch before head =>
      climb (headName !before.isEmpty) (headRead (!before.isEmpty) head.params.isSome)
        (sectionsStack base before)
  | .otherwise latest before _ _ =>
      climb .inverse Ground.otherwise.read (sectionsStack base (latest :: before))

/-- The stack at the beginning of the innermost of the levels. -/
def levelsStack : List Level → List Place
  | [] => []
  | ⟨enclosure, before⟩ :: levels =>
      enclosureStack (listed (groundOf levels).list (!before.isEmpty) (levelsStack levels))
        enclosure

/-- The stack between statements. -/
def contentStack (content : Content) : List Place :=
  listed (groundOf content.levels).list (!content.statements.isEmpty) (levelsStack content.levels)

/-- The stack after the latest section of a block. -/
def chainStack (chain : Chain) : List Place :=
  sectionsStack (contentStack chain.outer) (chain.latest :: chain.before)

/-- The place after some parts of a tag. -/
def tagList : Place := .inside .tagParts [.several .tagPart]

/-- The stack between the parts of an opening tag. -/
def tagStack (tag : OpenTag) : List Place :=
  listed tagList (!tag.parts.isEmpty)
    (.inside .element [.token .startTag] :: contentStack tag.outer)

/-- What is read of an attribute after its name. -/
def nameRead : List Symbol := [.token .attributeName]

/-- What is read of an attribute before its value. -/
def assignmentRead : List Symbol := [.token .attributeName, .token .equals]

/-- The stack before the value of an attribute. -/
def assignmentStack (assignment : Assignment) : List Place :=
  climb .attribute assignmentRead (tagStack assignment.tag)

/-- The place after some parts of a quoted value. -/
def quotedList : Place := .inside .attributeValue [.token .quoteOpen, .several .quotedPart]

/-- The stack between the parts of a quoted value. -/
def quoteStack (quote : OpenQuote) : List Place :=
  listed quotedList (!quote.parts.isEmpty)
    (.inside .attributeValue [.token .quoteOpen] :: assignmentStack quote.assignment)

/-- The stack before a mustache. -/
def mustacheSiteStack : MustacheSite → List Place
  | .statement content => contentStack content
  | .value assignment => assignmentStack assignment
  | .quoted quote => quoteStack quote

/-- Whether a head is that of a chained else. -/
def isChained : HeadSite → Bool
  | .block _ => false
  | .chained _ => true

/-- The stack before a head. -/
def headBase : HeadSite → List Place
  | .block content => contentStack content
  | .chained chain => chainStack chain

/-- The stack after the opening of a head. -/
def headSiteStack (site : HeadSite) : List Place :=
  .inside (headName (isChained site)) [.token (headOpening (isChained site))] :: headBase site

/-- The kind of token that opens a mustache. -/
def mustacheOpening (trusting : Bool) : Kind := if trusting then .openTriple else .openCurly

/-- The stack after the opening of a call between curly braces. -/
def siteStack : Recogniser.Site → List Place
  | .mustache site trusting =>
      .inside .mustache [.token (mustacheOpening trusting)] :: mustacheSiteStack site
  | .head site => headSiteStack site
  | .modifier tag => .inside .modifier [.token .openCurly] :: tagStack tag

/-- What is read of a call, with arguments or without and with pairs or without. -/
def callRead (args pairs : Bool) : List Symbol :=
  .phrase .expression ::
    ((if args then [.several .expression] else []) ++ if pairs then [.several .pair] else [])

theorem callRead_ne_nil (args pairs : Bool) : callRead args pairs ≠ [] := List.cons_ne_nil _ _

/-- The stack inside a call. -/
def progressStack (base : List Place) : Recogniser.Progress → List Place
  | .start => base
  | .arguments _ args => climb .call (callRead (!args.isEmpty) false) base
  | .key _ args pairs _ =>
      .inside .pair [.token .hashKey] ::
        climb .call (callRead (!args.isEmpty) (!pairs.isEmpty)) base
  | .pairs _ args pairs => climb .call (callRead (!args.isEmpty) (!pairs.isEmpty)) base

/-- The stack at the beginning of the innermost of the calls. -/
def pendingStack (base : List Place) : List Pending → List Place
  | [] => base
  | ⟨progress, _⟩ :: pending =>
      .inside .nested [.token .openParen] :: progressStack (pendingStack base pending) progress

/-- The stack at the beginning of a call. -/
def callStack (call : OpenCall) : List Place := pendingStack (siteStack call.site) call.pending

/-- The stack after one more symbol of the innermost phrase. -/
def grow (symbol : Symbol) (stack : List Place) : List Place := (top stack).extend symbol :: stack

/-- One more symbol of a phrase is one more place of it on the stack. -/
theorem grow_climb (name : Nonterminal) {read : List Symbol} (h : read ≠ []) (symbol : Symbol)
    (base : List Place) :
    grow symbol (climb name read base) = climb name (read ++ [symbol]) base := by
  rw [grow, top_climb name h, climb_concat]
  rfl

/-- Whether there is an inverse. -/
def hasInverse : Phrase.Inverse → Bool
  | .absent => false
  | _ => true

/-- What is read of a block after the opening of its closing. -/
def endRead (params inverse : Bool) : List Symbol :=
  headRead false params ++ .phrase .program ::
    ((if inverse then [.phrase .inverse] else []) ++ [.token .openEndBlock])

theorem endRead_ne_nil (params inverse : Bool) : endRead params inverse ≠ [] :=
  List.cons_ne_nil _ _

/-- The stack after the opening of a block's closing. -/
def endStack (block : OpenEnd) : List Place :=
  climb .block (endRead block.head.params.isSome (hasInverse block.inverse))
    (contentStack block.outer)

/-- The stack of the driver where the recogniser stands at the position. -/
def positionStack : Position → List Place
  | .content content => contentStack content
  | .tag tag => tagStack tag
  | .attribute tag _ => .inside .attribute nameRead :: tagStack tag
  | .assigned assignment => assignmentStack assignment
  | .quoted quote => quoteStack quote
  | .call call progress => progressStack (callStack call) progress
  | .called call _ => grow (.phrase .call) (callStack call)
  | .params site _ _ _ => grow (.phrase .blockParams) (grow (.phrase .call) (headSiteStack site))
  | .sectionEnd chain => chainStack chain
  | .elseOpened chain _ => .inside .inverse [.token .openElse] :: chainStack chain
  | .inverse chain _ => grow (.phrase .inverse) (chainStack chain)
  | .endOpened block => endStack block
  | .endPath block _ => grow (.phrase (.atom .path)) (endStack block)

/-! ## Complete phrases -/

/-- Whether a category is reduced before what comes next. -/
def Category.allows (category : Category) (look : Lookahead) : Bool := category.looks.contains look

/-- Nothing is read at the place but a complete rule, which is not empty. -/
structure Place.Final (place : Place) : Prop where
  items_eq : place.items = [⟨place.category, place.read, []⟩]
  read_ne_nil : place.read ≠ []
  ne_whole : place.category ≠ .whole
  ne_plainElse : place ≠ .plainElse

instance (place : Place) : Decidable place.Final :=
  decidable_of_iff (_ ∧ _ ∧ _ ∧ _)
    ⟨fun ⟨items, read, whole, other⟩ => ⟨items, read, whole, other⟩,
      fun ⟨items, read, whole, other⟩ => ⟨items, read, whole, other⟩⟩

theorem Place.Final.ne_nil {name : Nonterminal} {read : List Symbol}
    (h : (Place.inside name read).Final) : read ≠ [] :=
  h.read_ne_nil

/-- At the end of a phrase that can go on no further, the table completes it before whatever
may follow it. -/
theorem Place.Final.reduction {place : Place} (h : place.Final) (look : Lookahead) :
    place.reduction? look =
      if place.category.allows look then some ⟨place.category, place.read, []⟩ else none := by
  have hcategory : (place.category != .whole) = true := bne_iff_ne.2 h.ne_whole
  have hlooks : (place.looks place.category).contains look = place.category.allows look := by
    rw [Place.looks, if_neg h.ne_plainElse]
    rfl
  rw [Place.reduction?, h.items_eq, List.find?_singleton, List.isEmpty_nil, hcategory, hlooks]
  rfl

/-- Where a phrase is complete, there is an action on what it is reduced before and on nothing
else. -/
theorem Place.Final.acts {place : Place} (h : place.Final) (look : Lookahead) :
    place.acts look = place.category.allows look := by
  have hnext (symbol : Symbol) : place.next symbol = none := by
    rw [Place.next, h.items_eq]
    rfl
  -- the whole text is complete at a place of its own
  have hcomplete : (place == .complete) = false := by
    rw [beq_eq_false_iff_ne]
    rintro rfl
    exact h.ne_whole rfl
  have hreduction : (place.reduction? look).isSome = place.category.allows look := by
    rw [h.reduction]
    cases place.category.allows look <;> rfl
  cases look with
  | finish => rw [Place.acts, hreduction, hcomplete, Bool.or_false]
  | token kind => rw [Place.acts, hreduction, hnext, Option.isSome_none, Bool.or_false]

/-! ## Reductions still to be made -/

/-- Reductions before whatever is allowed to come next, where there is an action on nothing
else. -/
inductive Lags (allows : Lookahead → Bool) : List Place → List Place → Prop where
  | refl {stack : List Place} : Lags allows stack stack
  | step {stack next final : List Place} : (∀ look, (top stack).acts look = allows look) →
      (∀ look, allows look = true → Reduces look stack next) → Lags allows next final →
      Lags allows stack final

theorem Lags.steps {allows : Lookahead → Bool} {stack final : List Place}
    (h : Lags allows stack final) {look : Lookahead} (hlook : allows look = true) :
    Steps look stack final := by
  induction h with
  | refl => exact .refl
  | step _ hreduces _ ih => exact .head (hreduces look hlook) ih

/-- A complete phrase is reduced. -/
theorem Lags.reduce {allows : Lookahead → Bool} {place next : Place} {rest base final : List Place}
    (hfinal : place.Final) (hallows : ∀ look, allows look = place.category.allows look)
    (hdrop : (place :: rest).drop place.read.length = base)
    (hlength : place.read.length ≤ rest.length + 1)
    (hnext : (top base).next (.group place.category) = some next)
    (h : Lags allows (next :: base) final) : Lags allows (place :: rest) final := by
  refine .step (fun look => (hfinal.acts look).trans (hallows look).symm) (fun look hlook => ?_) h
  have hitem : (top (place :: rest)).reduction? look = some ⟨place.category, place.read, []⟩ :=
    (hfinal.reduction look).trans (if_pos ((hallows look).symm.trans hlook))
  have hle : ¬ (place :: rest).length < place.read.length := Nat.not_lt.2 hlength
  rw [Reduces, reduce?, hitem, Option.map_some, reduceBy, if_neg hle, hdrop, push?_of_next hnext]

/-- A phrase with a place for each of its symbols is reduced. -/
theorem reduces_climb {name : Nonterminal} {read : List Symbol} {next : Place} {base : List Place}
    {look : Lookahead} (hread : read ≠ [])
    (hitem : (Place.inside name read).reduction? look = some ⟨.phrase name, read, []⟩)
    (hnext : (top base).next (.phrase name) = some next) :
    Reduces look (climb name read base) (next :: base) := by
  have hle : ¬ (climb name read base).length < read.length := by
    rw [length_climb]
    omega
  have hpush : push? base (.group (.phrase name)) = some (next :: base) := push?_of_next hnext
  rw [Reduces, reduce?, top_climb name hread, hitem, Option.map_some, reduceBy, if_neg hle,
    drop_climb, hpush]

/-- A phrase that is read to its end lags behind the stack on which it is complete. -/
theorem Lags.reduce_climb {allows : Lookahead → Bool} {name : Nonterminal} {read : List Symbol}
    {next : Place} {base final : List Place} (hfinal : (Place.inside name read).Final)
    (hallows : ∀ look, allows look = (Category.phrase name).allows look)
    (hnext : (top base).next (.phrase name) = some next) (h : Lags allows (next :: base) final) :
    Lags allows (climb name read base) final := by
  refine .step (fun look => ?_) (fun look hlook => ?_) h
  · rw [top_climb name hfinal.ne_nil, hallows]
    exact hfinal.acts look
  · refine reduces_climb hfinal.ne_nil ?_ hnext
    exact (hfinal.reduction look).trans (if_pos ((hallows look).symm.trans hlook))

/-! ## Lists -/

/-- A list of phrases begins at the one place and goes on at the other. -/
structure Place.Lists (place : Place) (part : Nonterminal) (list : Place) : Prop where
  begins : place.next (.several part) = some list
  first : place.next (.phrase part) = some ⟨.several (.phrase part), [.phrase part]⟩
  more : list.next (.phrase part) =
    some ⟨.several (.phrase part), [.several part, .phrase part]⟩
  first_final : Place.Final ⟨.several (.phrase part), [.phrase part]⟩
  more_final : Place.Final ⟨.several (.phrase part), [.several part, .phrase part]⟩

instance (place : Place) (part : Nonterminal) (list : Place) : Decidable (place.Lists part list) :=
  decidable_of_iff (_ ∧ _ ∧ _ ∧ _ ∧ _)
    ⟨fun ⟨begins, first, more, one, two⟩ => ⟨begins, first, more, one, two⟩,
      fun ⟨begins, first, more, one, two⟩ => ⟨begins, first, more, one, two⟩⟩

/-- A part of a list becomes the last of the list. -/
theorem Place.Lists.lags {base : List Place} {part : Nonterminal} {list : Place}
    (h : (top base).Lists part list) (begun : Bool) :
    ∃ next, (top (listed list begun base)).next (.phrase part) = some next ∧
      Lags (Category.phrase part).allows (next :: listed list begun base)
        (listed list true base) := by
  -- a list of one part and a longer list are reduced by rules of their own
  cases begun with
  | false =>
      refine ⟨_, h.first, ?_⟩
      exact .reduce h.first_final (fun _ => rfl) rfl (Nat.le_add_left _ _) h.begins .refl
  | true =>
      refine ⟨_, h.more, ?_⟩
      exact .reduce h.more_final (fun _ => rfl) rfl (Nat.le_add_left _ _) h.begins .refl

/-- A phrase that is a part of a list becomes the last of the list. -/
theorem Place.Lists.lags_choice {base : List Place} {part choice : Nonterminal} {list : Place}
    (h : (top base).Lists part list) (begun : Bool)
    (hfinal : (Place.inside part [.phrase choice]).Final) :
    Lags (Category.phrase part).allows
      (.inside part [.phrase choice] :: listed list begun base) (listed list true base) := by
  obtain ⟨next, hnext, hlags⟩ := h.lags begun
  exact .reduce hfinal (fun _ => rfl) rfl (Nat.le_add_left _ _) hnext hlags

/-! ## Statements -/

namespace Ground

theorem lists : ∀ ground ∈ all, ground.place.Lists .statement ground.list := by
  decide

/-- Between statements there is an action on what begins one and on what ends them. -/
theorem acts_spot : ∀ ground ∈ all, ∀ begun : Bool, ∀ look ∈ Lookahead.all,
    (ground.spot begun).acts look =
      (ground.ends begun ++ statementStarts.map Lookahead.token).contains look := by
  decide

theorem begins_statement : ∀ ground ∈ all, ∀ begun : Bool,
    ∀ choice ∈ Nonterminal.statement.choices,
      (ground.spot begun).Begins (.phrase choice) .statement := by
  decide

/-- The kinds of token that a statement begins with, and the phrase that it then is. -/
def openings : List (Kind × Nonterminal) :=
  [(.text, .text), (.htmlComment, .htmlComment), (.curlyComment, .curlyComment),
    (.openCurly, .mustache), (.openTriple, .mustache), (.openBlock, .block), (.startTag, .element)]

theorem begins_token : ∀ ground ∈ all, ∀ begun : Bool, ∀ opening ∈ openings,
    (ground.spot begun).Begins (.token opening.1) opening.2 := by
  decide

/-- Before what ends them the statements are reduced. -/
theorem reduction_spot : ∀ ground ∈ all, ∀ begun : Bool, ∀ look ∈ ground.ends begun,
    (ground.spot begun).reduction? look =
      some ⟨.phrase ground.body, if begun then [.several .statement] else [], []⟩ := by
  decide

theorem next_body : ∀ ground ∈ all, ground ≠ .whole →
    ground.place.next (.phrase ground.body) =
      some (.inside ground.name (ground.read ++ [.phrase ground.body])) := by
  decide

end Ground

end TemplateUsage.ShiftReduce
