import TemplateUsage.Proofs.ShiftReduce.Actions

set_option autoImplicit false

/-!
# Configurations and stacks

A configuration of the recogniser has stacks of the driver (`Matches`): the stack of its
position, or one with reductions still to be made before it, as many as the configuration has
checks to make and perhaps more. Here the two take in the tokens between statements, in tags
and in the values of attributes (`KeepsUp`).
-/

namespace TemplateUsage.ShiftReduce

open Grammar (Nonterminal)
open Recogniser

/-! ## Configurations and stacks -/

/-- The stack that the driver may have in a configuration of the recogniser. -/
inductive Matches : Position → List Follow → List Place → Prop where
  | settled {position : Position} {stack : List Place} : Proper position →
      Lags position.settled.acts stack (positionStack position) → Matches position [] stack
  | check {position : Position} {follow : Follow} {checks : List Follow}
      {stack next : List Place} : (∀ look, (top stack).acts look = follow.allows look) →
      Lags follow.allows stack next → Matches position checks next →
      Matches position (follow :: checks) stack

theorem Matches.exact {position : Position} (h : Proper position) :
    Matches position [] (positionStack position) :=
  .settled h .refl

/-- Reductions of a phrase before everything that there is an action on. -/
theorem Matches.of_lags {position : Position} {category : Category} {stack : List Place}
    (h : Proper position) (hlooks : looksAt position = category.looks)
    (hlags : Lags category.allows stack (positionStack position)) : Matches position [] stack := by
  have hacts : position.settled.acts = category.allows := by
    funext look
    rw [acts_settled h, hlooks]
    rfl
  exact .settled h (hacts ▸ hlags)

/-- The phrase that is checked for what follows it. -/
def followName : Follow → Nonterminal
  | .statement => .statement
  | .curlyComment => .curlyComment
  | .mustache => .mustache
  | .params => .blockParams
  | .expression => .expression

/-- A phrase is checked for what it is reduced before. -/
theorem allows_follow (follow : Follow) (look : Lookahead) :
    follow.allows look = (Category.phrase (followName follow)).allows look := by
  have hall : ∀ look ∈ Lookahead.all,
      follow.allows look = (Category.phrase (followName follow)).allows look := by
    cases follow <;> decide
  exact hall look look.mem_all

/-- After a complete phrase it is checked what follows. -/
theorem Matches.of_final {position : Position} {follow : Follow} {checks : List Follow}
    {place : Place} {rest next : List Place} (hfinal : place.Final)
    (hallows : ∀ look, (Category.phrase (followName follow)).allows look =
      place.category.allows look)
    (hlags : Lags (Category.phrase (followName follow)).allows (place :: rest) next)
    (h : Matches position checks next) : Matches position (follow :: checks) (place :: rest) := by
  rw [← funext (allows_follow follow)] at hlags
  refine .check (fun look => ?_) hlags h
  exact (hfinal.acts look).trans ((allows_follow follow look).trans (hallows look)).symm

theorem Matches.of_climb {position : Position} {checks : List Follow} (follow : Follow)
    (read : List Symbol) {next : Place} {base : List Place}
    (hfinal : (Place.inside (followName follow) read).Final)
    (hnext : (top base).next (.phrase (followName follow)) = some next)
    (h : Matches position checks (next :: base)) :
    Matches position (follow :: checks) (climb (followName follow) read base) := by
  have hlags : Lags (Category.phrase (followName follow)).allows _ _ :=
    .reduce_climb hfinal (fun _ => rfl) hnext .refl
  rw [climb_of_ne_nil _ hfinal.ne_nil] at hlags ⊢
  exact .of_final hfinal (fun _ => rfl) hlags h

/-- The driver shifts a token and then has a stack that the recogniser may have. -/
def KeepsUp (stack : List Place) (kind : Kind) (next : Lexeme → Config) : Prop :=
  ∃ settled shifted, Steps (.token kind) stack settled ∧
    push? settled (.token kind) = some shifted ∧
    ∀ lexeme, Matches (next lexeme).position (next lexeme).checks shifted

theorem KeepsUp.of_next {stack : List Place} {kind : Kind} {place : Place}
    {next : Lexeme → Config} (hnext : (top stack).next (.token kind) = some place)
    (h : ∀ lexeme, Matches (next lexeme).position (next lexeme).checks (place :: stack)) :
    KeepsUp stack kind next :=
  ⟨stack, _, .refl, push?_of_next hnext, h⟩

/-- A call opens where its phrase begins with the token. -/
theorem KeepsUp.openCall {site : Recogniser.Site} {kind : Kind} {place : Place} {base : List Place}
    (hsite : siteStack site = place :: base) (hchained : ∀ chain, site ≠ .head (.chained chain))
    (hnext : (top base).next (.token kind) = some place) :
    KeepsUp base kind (openCall site) := by
  refine .of_next hnext fun lexeme => ?_
  rw [← hsite]
  exact .exact ⟨nofun, fun _ => hchained⟩

/-- Before what ends a list all of it is reduced. -/
theorem reduces_list {list next : Place} {begun : Bool} {base : List Place} {look : Lookahead}
    {name : Nonterminal} {symbol : Symbol}
    (hitem : (top (listed list begun base)).reduction? look =
      some ⟨.phrase name, if begun then [symbol] else [], []⟩)
    (hnext : (top base).next (.phrase name) = some next) :
    Reduces look (listed list begun base) (next :: base) := by
  cases begun with
  | false => exact @reduces_of_reduction [] base _ look _ hitem rfl (push?_of_next hnext)
  | true => exact @reduces_of_reduction [list] base _ look _ hitem rfl (push?_of_next hnext)

/-! ## Statements -/

section Statements

variable (content : Content)

theorem begins_statement {choice : Nonterminal}
    (hchoice : choice ∈ Nonterminal.statement.choices) :
    (top (contentStack content)).Begins (.phrase choice) .statement := by
  rw [top_contentStack]
  exact Ground.begins_statement _ (Ground.mem_all _) _ choice hchoice

theorem begins_opening (kind : Kind) (name : Nonterminal) (h : (kind, name) ∈ Ground.openings) :
    (top (contentStack content)).Begins (.token kind) name := by
  rw [top_contentStack]
  exact Ground.begins_token _ (Ground.mem_all _) _ _ h

theorem final_statement : ∀ choice ∈ Nonterminal.statement.choices,
    (Place.inside .statement [.phrase choice]).Final := by
  decide

/-- A phrase that is a statement becomes the last of the statements. -/
theorem lags_statement (statement : Phrase.Statement) {choice : Nonterminal}
    (hchoice : choice ∈ Nonterminal.statement.choices) :
    Lags (Category.phrase .statement).allows
      (.inside .statement [.phrase choice] :: contentStack content)
      (contentStack (content.add statement)) := by
  have hlists : (top (levelsStack content.levels)).Lists .statement
      (groundOf content.levels).list := by
    rw [top_levelsStack]
    exact Ground.lists _ (Ground.mem_all _)
  exact hlists.lags_choice _ (final_statement choice hchoice)

theorem matches_statement (statement : Phrase.Statement) {choice : Nonterminal}
    (hchoice : choice ∈ Nonterminal.statement.choices) :
    Matches (.content (content.add statement)) [.statement]
      (.inside .statement [.phrase choice] :: contentStack content) :=
  .of_final (final_statement choice hchoice) (fun _ => rfl)
    (lags_statement content statement hchoice) (.exact trivial)

/-- A complete phrase that is a statement and nothing else. -/
theorem matches_phrase (statement : Phrase.Statement) (choice : Nonterminal) (read : List Symbol)
    (hchoice : choice ∈ Nonterminal.statement.choices)
    (hlooks : nameLooks choice = statementLooks) (hfinal : (Place.inside choice read).Final) :
    Matches (.content (content.add statement)) [.statement]
      (climb choice read (contentStack content)) := by
  have hallows (look : Lookahead) :
      (Category.phrase .statement).allows look = (Category.phrase choice).allows look := by
    rw [Category.allows, Category.allows, Category.looks, Category.looks, hlooks]
    rfl
  have hlags := Lags.reduce_climb hfinal hallows (begins_statement content hchoice)
    (lags_statement content statement hchoice)
  rw [climb_of_ne_nil choice hfinal.ne_nil] at hlags ⊢
  exact .of_final hfinal hallows hlags (.exact trivial)

/-- Before what ends them the statements are reduced. -/
theorem reduces_body {look : Lookahead} {base : List Place}
    (hground : groundOf content.levels ≠ .whole)
    (hbase : levelsStack content.levels =
      climb (groundOf content.levels).name (groundOf content.levels).read base)
    (hlook : look ∈ (groundOf content.levels).ends (!content.statements.isEmpty)) :
    Reduces look (contentStack content) (climb (groundOf content.levels).name
      ((groundOf content.levels).read ++ [.phrase (groundOf content.levels).body]) base) := by
  have hitem := Ground.reduction_spot _ (Ground.mem_all _) _ look hlook
  have hnext := Ground.next_body _ (Ground.mem_all _) hground
  rw [← top_contentStack] at hitem
  rw [← top_levelsStack] at hnext
  rw [climb_concat, ← hbase]
  exact reduces_list hitem hnext

/-- Before the end of the text its statements are reduced to the whole. -/
theorem reduces_whole (statements : List Phrase.Statement) :
    Reduces .finish (contentStack ⟨statements, []⟩) [.complete] := by
  have hitem : (top (contentStack ⟨statements, []⟩)).reduction? .finish =
      some ⟨.phrase .start, if !statements.isEmpty then [.several .statement] else [], []⟩ := by
    rw [top_contentStack]
    exact Ground.reduction_spot .whole (Ground.mem_all _) _ _ List.mem_cons_self
  have hnext : (top []).next (.phrase .start) = some .complete := by decide
  exact reduces_list hitem hnext

/-- A statement of one token. -/
theorem keepsUp_token (kind : Kind) (choice : Nonterminal)
    (hopening : (kind, choice) ∈ Ground.openings)
    (hchoice : choice ∈ Nonterminal.statement.choices)
    (hlooks : nameLooks choice = statementLooks)
    (hfinal : (Place.inside choice [.token kind]).Final) (statement : Lexeme → Phrase.Statement) :
    KeepsUp (contentStack content) kind
      fun lexeme => (Position.content (content.add (statement lexeme))).after .statement :=
  .of_next (begins_opening content kind choice hopening) fun lexeme =>
    matches_phrase content (statement lexeme) choice _ hchoice hlooks hfinal

/-- What the recogniser takes in between statements, the driver takes in. -/
theorem keepsUp_content {kind : Kind} {next : Lexeme → Config}
    (h : shiftContent? content kind = some next) : KeepsUp (contentStack content) kind next := by
  unfold shiftContent? at h
  split at h
  · -- a text
    cases h
    exact keepsUp_token content .text .text (by decide) (by decide) rfl (by decide) _
  · -- a comment of HTML, which can only be a statement
    cases h
    exact keepsUp_token content .htmlComment .htmlComment (by decide) (by decide) rfl
      (by decide) _
  · -- the other comment may be part of a tag too, so it is checked before the statement is
    cases h
    refine .of_next (begins_opening content _ .curlyComment (by decide)) fun lexeme => ?_
    exact .of_climb .curlyComment [.token .curlyComment] (by decide)
      (begins_statement content (by decide)) (matches_statement content _ (by decide))
  · -- a mustache, of two braces or of three, and the head of a block open a call
    cases h
    exact .openCall rfl nofun (begins_opening content _ .mustache (by decide))
  · cases h
    exact .openCall rfl nofun (begins_opening content _ .mustache (by decide))
  · cases h
    exact .openCall rfl nofun (begins_opening content _ .block (by decide))
  · cases h
    exact .of_next (begins_opening content _ .element (by decide)) fun lexeme => .exact trivial
  · -- an end tag, where an element is open
    split at h
    · rename_i tag tagEnd before levels hlevels
      cases h
      obtain ⟨statements, _⟩ := content
      obtain rfl := hlevels
      -- before the end of an element its statements are reduced to a body
      have hreduces : Reduces (.token .endTag) _ _ :=
        reduces_body ⟨statements, ⟨.element tag tagEnd, before⟩ :: levels⟩ nofun rfl
          List.mem_cons_self
      have hplace : (Place.inside .element [.token .startTag, .phrase .tagParts, .token .tagEnd,
          .phrase .elementBody]).next (.token .endTag) = some (.inside .element
            [.token .startTag, .phrase .tagParts, .token .tagEnd, .phrase .elementBody,
              .token .endTag]) := by
        decide
      refine ⟨_, _, .single hreduces, push?_of_next hplace, fun lexeme => ?_⟩
      exact matches_phrase ⟨before, levels⟩ _ .element
        [.token .startTag, .phrase .tagParts, .token .tagEnd, .phrase .elementBody, .token .endTag]
        (by decide) rfl (by decide)
    · cases h
  · cases h

end Statements

/-! ## Tags -/

section Tags

/-- The place between the parts of a tag. -/
def tagSpot (begun : Bool) : Place :=
  if begun then tagList else .inside .element [.token .startTag]

theorem lists_tagPart : (tagSpot false).Lists .tagPart tagList := by
  decide

/-- What begins between the parts of a tag. -/
theorem begins_tagSpot : ∀ begun : Bool,
    (∀ choice ∈ Nonterminal.tagPart.choices, (tagSpot begun).Begins (.phrase choice) .tagPart) ∧
      (tagSpot begun).Begins (.token .attributeName) .attribute ∧
      (tagSpot begun).Begins (.token .blockParams) .blockParams ∧
      (tagSpot begun).Begins (.token .curlyComment) .curlyComment ∧
      (tagSpot begun).Begins (.token .openCurly) .modifier := by
  decide

/-- Before what ends a tag its parts are reduced. -/
theorem reduction_tagSpot : ∀ begun : Bool, ∀ kind ∈ tagEnds,
    (tagSpot begun).reduction? (.token kind) =
        some ⟨.phrase .tagParts, if begun then [.several .tagPart] else [], []⟩ ∧
      (Place.inside .element [.token .startTag, .phrase .tagParts]).next (.token kind) =
        some (.inside .element [.token .startTag, .phrase .tagParts, .token kind]) := by
  decide

theorem next_tagParts : (Place.inside .element [.token .startTag]).next (.phrase .tagParts) =
    some (.inside .element [.token .startTag, .phrase .tagParts]) := by
  decide

theorem final_tagPart : ∀ choice ∈ Nonterminal.tagPart.choices,
    (Place.inside .tagPart [.phrase choice]).Final := by
  decide

variable (tag : OpenTag)

theorem top_tagStack : top (tagStack tag) = tagSpot (!tag.parts.isEmpty) := by
  obtain ⟨outer, name, _ | _⟩ := tag <;> rfl

theorem begins_tagPart {choice : Nonterminal} (hchoice : choice ∈ Nonterminal.tagPart.choices) :
    (top (tagStack tag)).Begins (.phrase choice) .tagPart := by
  rw [top_tagStack]
  exact (begins_tagSpot _).1 choice hchoice

/-- A phrase that is a part of a tag becomes the last of the parts. -/
theorem lags_tagPart (part : Phrase.TagPart) {choice : Nonterminal}
    (hchoice : choice ∈ Nonterminal.tagPart.choices) :
    Lags (Category.phrase .tagPart).allows (.inside .tagPart [.phrase choice] :: tagStack tag)
      (tagStack (tag.add part)) := by
  have hlists : (top (.inside .element [.token .startTag] :: contentStack tag.outer)).Lists
      .tagPart tagList :=
    lists_tagPart
  exact hlists.lags_choice _ (final_tagPart choice hchoice)

theorem matches_tagPart (part : Phrase.TagPart) {choice : Nonterminal}
    (hchoice : choice ∈ Nonterminal.tagPart.choices) :
    Matches (.tag (tag.add part)) [] (.inside .tagPart [.phrase choice] :: tagStack tag) :=
  .of_lags trivial rfl (lags_tagPart tag part hchoice)

/-- What ends a tag is shifted when the parts of the tag are reduced. -/
theorem exists_push_tagEnd {kind : Kind} (hkind : kind ∈ tagEnds) :
    ∃ settled, Steps (.token kind) (tagStack tag) settled ∧
      push? settled (.token kind) = some (climb .element
        [.token .startTag, .phrase .tagParts, .token kind] (contentStack tag.outer)) := by
  obtain ⟨hitem, hnext⟩ := reduction_tagSpot (!tag.parts.isEmpty) kind hkind
  rw [← top_tagStack] at hitem
  exact ⟨_, .single (reduces_list hitem next_tagParts), push?_of_next hnext⟩

/-- What the recogniser takes in between the parts of a tag, the driver takes in. -/
theorem keepsUp_tag {kind : Kind} {next : Lexeme → Config}
    (h : shiftTag? tag kind = some next) : KeepsUp (tagStack tag) kind next := by
  obtain ⟨-, hname, hparams, hcomment, hcurly⟩ := begins_tagSpot (!tag.parts.isEmpty)
  rw [← top_tagStack] at hname hparams hcomment hcurly
  unfold shiftTag? at h
  split at h
  · -- the name of an attribute is not yet a part, since a value may come
    cases h
    exact .of_next hname fun lexeme => .exact trivial
  · -- names and comments are parts at once
    cases h
    refine .of_next hparams fun lexeme => ?_
    exact .of_climb .params [.token .blockParams] (by decide)
      (begins_tagPart tag (by decide)) (matches_tagPart tag _ (by decide))
  · cases h
    refine .of_next hcomment fun lexeme => ?_
    exact .of_climb .curlyComment [.token .curlyComment] (by decide)
      (begins_tagPart tag (by decide)) (matches_tagPart tag _ (by decide))
  · cases h
    exact .openCall rfl nofun hcurly
  · -- of the three ends of a tag the first opens an element, and the others complete it
    cases h
    obtain ⟨settled, hsteps, hpush⟩ := exists_push_tagEnd tag (by decide : Kind.tagEnd ∈ tagEnds)
    exact ⟨settled, _, hsteps, hpush, fun lexeme => .exact trivial⟩
  · cases h
    obtain ⟨settled, hsteps, hpush⟩ :=
      exists_push_tagEnd tag (by decide : Kind.tagSelfClose ∈ tagEnds)
    exact ⟨settled, _, hsteps, hpush, fun lexeme =>
      matches_phrase tag.outer _ .element _ (by decide) rfl (by decide)⟩
  · cases h
    obtain ⟨settled, hsteps, hpush⟩ :=
      exists_push_tagEnd tag (by decide : Kind.voidTagEnd ∈ tagEnds)
    exact ⟨settled, _, hsteps, hpush, fun lexeme =>
      matches_phrase tag.outer _ .element _ (by decide) rfl (by decide)⟩
  · cases h

end Tags

/-! ## Attributes -/

section Attributes

/-- The place before the value of an attribute. -/
def valueSpot : Place := .inside .attribute assignmentRead

theorem begins_valueSpot :
    valueSpot.Begins (.token .attributeText) .attributeValue ∧
      valueSpot.Begins (.token .quoteOpen) .attributeValue ∧
      valueSpot.Begins (.token .openCurly) .mustache ∧
      valueSpot.Begins (.token .openTriple) .mustache ∧
      valueSpot.Begins (.phrase .mustache) .attributeValue := by
  decide

theorem next_value : valueSpot.next (.phrase .attributeValue) =
    some (.inside .attribute (assignmentRead ++ [.phrase .attributeValue])) := by
  decide

/-- A complete attribute becomes the last part of the tag. -/
theorem lags_attribute (tag : OpenTag) (part : Phrase.TagPart) (read : List Symbol)
    (hfinal : (Place.inside .attribute read).Final) :
    Lags (Category.phrase .tagPart).allows (climb .attribute read (tagStack tag))
      (tagStack (tag.add part)) :=
  .reduce_climb hfinal (fun _ => rfl) (begins_tagPart tag (by decide))
    (lags_tagPart tag part (by decide))

variable (assignment : Assignment)

/-- A complete value completes its attribute. -/
theorem matches_value (value : Phrase.Value) (read : List Symbol)
    (hfinal : (Place.inside .attributeValue read).Final) :
    Matches (.tag (assignment.assign value)) []
      (climb .attributeValue read (assignmentStack assignment)) := by
  -- value, attribute and part of the tag are reduced before the same tokens
  have hlags : Lags (Category.phrase .tagPart).allows
      (climb .attributeValue read (assignmentStack assignment))
      (tagStack (assignment.assign value)) :=
    .reduce_climb hfinal (fun _ => rfl) next_value
      (lags_attribute assignment.tag _
        [.token .attributeName, .token .equals, .phrase .attributeValue] (by decide))
  exact .of_lags trivial rfl hlags

/-- What the recogniser takes in before the value of an attribute, the driver takes in. -/
theorem keepsUp_value {kind : Kind} {next : Lexeme → Config}
    (h : shiftValue? assignment kind = some next) :
    KeepsUp (assignmentStack assignment) kind next := by
  obtain ⟨htext, hquote, hcurly, htriple, -⟩ := begins_valueSpot
  unfold shiftValue? at h
  split at h
  · cases h
    refine .of_next htext fun lexeme => ?_
    exact matches_value assignment _ [.token .attributeText] (by decide)
  · cases h
    exact .openCall rfl nofun hcurly
  · cases h
    exact .openCall rfl nofun htriple
  · cases h
    exact .of_next hquote fun lexeme => .exact trivial
  · cases h

/-- The place between the parts of a quoted value. -/
def quotedSpot (begun : Bool) : Place :=
  if begun then quotedList else .inside .attributeValue [.token .quoteOpen]

theorem lists_quotedPart : (quotedSpot false).Lists .quotedPart quotedList := by
  decide

theorem begins_quotedSpot : ∀ begun : Bool,
    (∀ choice ∈ Nonterminal.quotedPart.choices,
        (quotedSpot begun).Begins (.phrase choice) .quotedPart) ∧
      (quotedSpot begun).Begins (.token .attributeText) .attributeText ∧
      (quotedSpot begun).Begins (.token .openCurly) .mustache ∧
      (quotedSpot begun).Begins (.token .openTriple) .mustache := by
  decide

/-- A quoted value may end after any part. -/
theorem next_quoteClose : ∀ begun : Bool,
    (quotedSpot begun).next (.token .quoteClose) =
        some ((quotedSpot begun).extend (.token .quoteClose)) ∧
      ((quotedSpot begun).extend (.token .quoteClose)).Final := by
  decide

theorem final_quotedPart : ∀ choice ∈ Nonterminal.quotedPart.choices,
    (Place.inside .quotedPart [.phrase choice]).Final := by
  decide

variable (quote : OpenQuote)

theorem top_quoteStack : top (quoteStack quote) = quotedSpot (!quote.parts.isEmpty) := by
  obtain ⟨assignment, opening, _ | _⟩ := quote <;> rfl

theorem begins_quotedPart {choice : Nonterminal}
    (hchoice : choice ∈ Nonterminal.quotedPart.choices) :
    (top (quoteStack quote)).Begins (.phrase choice) .quotedPart := by
  rw [top_quoteStack]
  exact (begins_quotedSpot _).1 choice hchoice

/-- A phrase that is a part of a quoted value becomes the last of the parts. -/
theorem lags_quotedPart (part : Phrase.QuotedPart) {choice : Nonterminal}
    (hchoice : choice ∈ Nonterminal.quotedPart.choices) :
    Lags (Category.phrase .quotedPart).allows
      (.inside .quotedPart [.phrase choice] :: quoteStack quote) (quoteStack (quote.add part)) := by
  have hlists : (top (.inside .attributeValue [.token .quoteOpen] ::
      assignmentStack quote.assignment)).Lists .quotedPart quotedList :=
    lists_quotedPart
  exact hlists.lags_choice _ (final_quotedPart choice hchoice)

/-- What the recogniser takes in between the parts of a quoted value, the driver takes in. -/
theorem keepsUp_quoted {kind : Kind} {next : Lexeme → Config}
    (h : shiftQuoted? quote kind = some next) : KeepsUp (quoteStack quote) kind next := by
  obtain ⟨-, htext, hcurly, htriple⟩ := begins_quotedSpot (!quote.parts.isEmpty)
  rw [← top_quoteStack] at htext hcurly htriple
  unfold shiftQuoted? at h
  split at h
  · cases h
    refine .of_next htext fun lexeme => ?_
    have hlags : Lags (Category.phrase .quotedPart).allows
        (climb .attributeText [.token .attributeText] (quoteStack quote))
        (quoteStack (quote.add (.text lexeme))) :=
      .reduce_climb (by decide) (fun _ => rfl) (begins_quotedPart quote (by decide))
        (lags_quotedPart quote _ (by decide))
    exact .of_lags trivial rfl hlags
  · cases h
    exact .openCall rfl nofun hcurly
  · cases h
    exact .openCall rfl nofun htriple
  · cases h
    obtain ⟨hnext, hfinal⟩ := next_quoteClose (!quote.parts.isEmpty)
    rw [← top_quoteStack] at hnext
    refine .of_next hnext fun lexeme => ?_
    -- the rule for a value without parts is not the one for a value with parts
    obtain ⟨assignment, opening, _ | _⟩ := quote
    · exact matches_value assignment _ [.token .quoteOpen, .token .quoteClose] hfinal
    · exact matches_value assignment _
        [.token .quoteOpen, .several .quotedPart, .token .quoteClose] hfinal
  · cases h

end Attributes

end TemplateUsage.ShiftReduce
