import TemplateUsage.Proofs.ShiftReduce.Stacks

set_option autoImplicit false

/-!
# What there is an action on

At a position of the recogniser and on the stack that belongs to it there is an action on the
same tokens: `acts_settled` tells them for the recogniser, `actsOn_top` for the driver. Both
are tables (`looksAt`) that are gone through place by place.
-/

namespace TemplateUsage.ShiftReduce

open Grammar (Nonterminal)
open Recogniser

/-! ## Actions at a position -/

/-- What holds of a call that the recogniser comes to inside the calls around it. -/
def CallProper (call : OpenCall) : Prop :=
  ∀ waiting ∈ call.pending, waiting.progress.add?.isSome = true

/-- What holds of the positions that the recogniser comes to: in the calls there is a place
for those inside them, an else is only opened, pairs are not an empty list, and an inverse is
there. -/
def Proper : Position → Prop
  | .call call .start =>
      CallProper call ∧ (call.pending = [] → ∀ chain, call.site ≠ .head (.chained chain))
  | .call call (.pairs _ _ pairs) => CallProper call ∧ pairs ≠ []
  | .call call _ | .called call _ => CallProper call
  | .inverse _ ending => hasInverse ending = true
  | _ => True

/-- What there is an action on at the position. -/
def looksAt : Position → List Lookahead
  | .content ⟨statements, levels⟩ =>
      (groundOf levels).ends (!statements.isEmpty) ++ statementStarts.map .token
  | .tag _ => tagPartLooks
  | .attribute _ _ => .token .equals :: tagPartLooks
  | .assigned _ => [.token .attributeText, .token .openCurly, .token .openTriple, .token .quoteOpen]
  | .quoted _ => quotedPartLooks
  | .call _ .start | .call _ (.key _ _ _ _) => expressionStarts.map .token
  | .call _ (.arguments _ _) => expressionLooks
  | .call _ (.pairs _ _ _) => (.hashKey :: callEnds).map .token
  | .called ⟨_, _, _ :: _⟩ _ => [.token .closeParen]
  | .called ⟨.mustache _ false, _, []⟩ _ => [.token .closeCurly]
  | .called ⟨.mustache _ true, _, []⟩ _ => [.token .closeTriple]
  | .called ⟨.modifier _, _, []⟩ _ => [.token .closeCurly]
  | .called ⟨.head _, _, []⟩ _ => [.token .blockParams, .token .closeCurly]
  | .params _ _ _ _ => [.token .closeCurly]
  | .sectionEnd _ => [.token .openEndBlock, .token .openElse]
  | .elseOpened _ _ => .token .closeCurly :: expressionStarts.map .token
  | .inverse _ _ => [.token .openEndBlock]
  | .endOpened _ => [.token .path]
  | .endPath _ _ => [.token .closeCurly]

/-- The position the recogniser settles in acts on exactly the lookaheads listed for it. -/
theorem acts_settled {position : Position} (h : Proper position) (look : Lookahead) :
    position.settled.acts look = (looksAt position).contains look := by
  cases position with
  | content content =>
      obtain ⟨statements, levels⟩ := content
      rcases levels with _ | ⟨⟨_ | _ | _, before⟩, levels⟩
      · rcases look with kind | _
        · cases kind <;> rfl
        · rfl
      · rcases look with kind | _
        · cases kind <;> rfl
        · rfl
      · rcases look with kind | _
        · cases kind <;> rfl
        · rfl
      · rcases look with kind | _
        · cases statements <;> cases kind <;> rfl
        · cases statements <;> rfl
  | tag | assigned | quoted | params | elseOpened | endOpened | endPath | «attribute» =>
      rcases look with kind | _
      · cases kind <;> rfl
      · rfl
  | call call progress =>
      cases progress <;>
      · rcases look with kind | _
        · cases kind <;> rfl
        · rfl
  | called call complete =>
      obtain ⟨site, opening, _ | ⟨⟨progress, lexeme⟩, pending⟩⟩ := call
      · rcases site with ⟨site, _ | _⟩ | site | tag <;>
        · rcases look with kind | _
          · cases kind <;> rfl
          · rfl
      · -- the call around has room for the nested one, since the position is proper
        have hadd : progress.add?.isSome = true := h _ List.mem_cons_self
        obtain ⟨add, hadd⟩ := Option.isSome_iff_exists.1 hadd
        rcases look with kind | _
        · cases kind <;>
            simp [Config.acts, Config.reduce?, Config.shift?, Position.settled, Position.reduce?,
              Position.shift?, shiftCallEnd?, looksAt, hadd]
        · rfl
  | sectionEnd chain =>
      obtain ⟨outer, latest, _ | _⟩ := chain <;>
      · rcases look with kind | _
        · cases kind <;> rfl
        · rfl
  | inverse chain ending =>
      obtain ⟨outer, latest, _ | _⟩ := chain <;>
      · rcases look with kind | _
        · cases kind <;> rfl
        · rfl

/-- On top of the stack of open levels stands the place where the innermost of them goes on. -/
theorem top_levelsStack (levels : List Level) :
    top (levelsStack levels) = (groundOf levels).place := by
  -- a branch is read further with block parameters, and is another phrase after an else
  rcases levels with
    _ | ⟨⟨⟨tag, tagEnd⟩ | ⟨before, ⟨opening, call, params, closing⟩⟩ | _, _⟩, levels⟩
  · rfl
  · rfl
  · cases before <;> cases params <;> rfl
  · rfl

/-- Within a level, the place on top also tells whether a statement of it has been read. -/
theorem top_contentStack (content : Content) :
    top (contentStack content) =
      (groundOf content.levels).spot (!content.statements.isEmpty) := by
  obtain ⟨_ | _, levels⟩ := content
  · exact top_levelsStack levels
  · rfl

/-- There is an action at the place on these and on nothing else. -/
def Place.ActsOn (place : Place) (looks : List Lookahead) : Prop :=
  ∀ look ∈ Lookahead.all, place.acts look = looks.contains look

instance (place : Place) (looks : List Lookahead) : Decidable (place.ActsOn looks) :=
  inferInstanceAs (Decidable (∀ _ ∈ _, _))

/-- After the program of a block the table acts on `else` and on the end of the block, and
after its inverse on the end alone. -/
theorem actsOn_headRead : ∀ chained params : Bool,
    (Place.inside (headName chained) (headRead chained params ++ [.phrase .program])).ActsOn
        [.token .openEndBlock, .token .openElse] ∧
      (Place.inside (headName chained)
        (headRead chained params ++ [.phrase .program] ++ [.phrase .inverse])).ActsOn
          [.token .openEndBlock] := by
  decide

/-- Within a call the table acts on whatever may start an expression, and on arguments no more
once a pair has been read. -/
theorem actsOn_callRead : ∀ args : Bool,
    (Place.inside .call (callRead args false)).ActsOn expressionLooks ∧
      (Place.inside .call (callRead args true)).ActsOn ((.hashKey :: callEnds).map .token) := by
  decide

/-- The end of a block is its path and then the closing braces. -/
theorem actsOn_endRead : ∀ params inverse : Bool,
    (Place.inside .block (endRead params inverse)).ActsOn [.token .path] ∧
      (Place.inside .block (endRead params inverse ++ [.phrase (.atom .path)])).ActsOn
        [.token .closeCurly] := by
  decide

/-- The places after the opening of a call, but for an else. -/
def callPlaces : List Place :=
  [.inside .mustache [.token .openCurly], .inside .mustache [.token .openTriple],
    .inside .block [.token .openBlock], .inside .modifier [.token .openCurly],
    .inside .nested [.token .openParen]]

/-- Wherever a call may begin, the table acts on the starts of expressions. -/
theorem actsOn_callPlaces : ∀ place ∈ callPlaces,
    place.ActsOn (expressionStarts.map .token) := by
  decide

theorem top_chainStack (chain : Chain) :
    top (chainStack chain) = .inside (headName !chain.before.isEmpty)
      (headRead (!chain.before.isEmpty) chain.latest.head.params.isSome ++ [.phrase .program]) := by
  rw [chainStack, sectionsStack, climb_concat]
  rfl

theorem top_endStack (block : OpenEnd) :
    top (endStack block) =
      .inside .block (endRead block.head.params.isSome (hasInverse block.inverse)) :=
  top_climb _ (endRead_ne_nil _ _) _

/-- Below the callee of an open call stands one of the finitely many places of `callPlaces`. -/
theorem top_callStack {call : OpenCall}
    (h : call.pending = [] → ∀ chain, call.site ≠ .head (.chained chain)) :
    top (callStack call) ∈ callPlaces := by
  obtain ⟨site, opening, _ | ⟨waiting, pending⟩⟩ := call
  · rcases site with ⟨site, _ | _⟩ | ⟨content | chain⟩ | tag
    · exact List.mem_cons_self
    · exact List.mem_cons_of_mem _ List.mem_cons_self
    · exact List.mem_cons_of_mem _ (List.mem_cons_of_mem _ List.mem_cons_self)
    · exact absurd rfl (h rfl chain)
    · exact (by decide : Place.inside .modifier [.token .openCurly] ∈ callPlaces)
  · exact (by decide : Place.inside .nested [.token .openParen] ∈ callPlaces)

/-- The place on top of the stack of a position acts on exactly the lookaheads of the position.
-/
theorem actsOn_top {position : Position} (h : Proper position) :
    (top (positionStack position)).ActsOn (looksAt position) := by
  -- the place on top does not depend on what lies below, so there are finitely many
  cases position with
  | content content =>
      rw [positionStack, top_contentStack]
      exact Ground.acts_spot _ (Ground.mem_all _) _
  | tag tag =>
      obtain ⟨outer, name, _ | _⟩ := tag
      · exact (by decide : (Place.inside .element [.token .startTag]).ActsOn tagPartLooks)
      · exact (by decide : tagList.ActsOn tagPartLooks)
  | «attribute» tag name =>
      exact (by decide : (Place.inside .attribute nameRead).ActsOn
        (.token .equals :: tagPartLooks))
  | assigned assignment =>
      exact (by decide :
        (Place.inside .attribute assignmentRead).ActsOn
          [.token .attributeText, .token .openCurly, .token .openTriple, .token .quoteOpen])
  | quoted quote =>
      obtain ⟨assignment, opening, _ | _⟩ := quote
      · exact (by decide :
          (Place.inside .attributeValue [.token .quoteOpen]).ActsOn quotedPartLooks)
      · exact (by decide : quotedList.ActsOn quotedPartLooks)
  | call call progress =>
      cases progress with
      | start => exact actsOn_callPlaces _ (top_callStack h.2)
      | arguments callee args =>
          rw [positionStack, progressStack, top_climb _ (callRead_ne_nil _ _)]
          exact (actsOn_callRead _).1
      | key callee args pairs key =>
          exact (by decide :
            (Place.inside .pair [.token .hashKey]).ActsOn (expressionStarts.map .token))
      | pairs callee args pairs =>
          have hpairs : (!pairs.isEmpty) = true := by simpa using h.2
          rw [positionStack, progressStack, top_climb _ (callRead_ne_nil _ _), hpairs]
          exact (actsOn_callRead _).2
  | called call complete =>
      obtain ⟨site, opening, _ | ⟨waiting, pending⟩⟩ := call
      · rcases site with ⟨site, _ | _⟩ | ⟨content | chain⟩ | tag
        · exact (by decide :
            (Place.inside .mustache [.token .openCurly, .phrase .call]).ActsOn [.token .closeCurly])
        · exact (by decide :
            (Place.inside .mustache [.token .openTriple, .phrase .call]).ActsOn
              [.token .closeTriple])
        · exact (by decide :
            (Place.inside .block [.token .openBlock, .phrase .call]).ActsOn
              [.token .blockParams, .token .closeCurly])
        · exact (by decide :
            (Place.inside .inverse [.token .openElse, .phrase .call]).ActsOn
              [.token .blockParams, .token .closeCurly])
        · exact (by decide :
            (Place.inside .modifier [.token .openCurly, .phrase .call]).ActsOn [.token .closeCurly])
      · exact (by decide :
          (Place.inside .nested [.token .openParen, .phrase .call]).ActsOn [.token .closeParen])
  | params site opening call params =>
      cases site with
      | block content =>
          exact (by decide : (Place.inside .block
            [.token .openBlock, .phrase .call, .phrase .blockParams]).ActsOn [.token .closeCurly])
      | chained chain =>
          exact (by decide : (Place.inside .inverse
            [.token .openElse, .phrase .call, .phrase .blockParams]).ActsOn [.token .closeCurly])
  | sectionEnd chain =>
      rw [positionStack, top_chainStack]
      exact (actsOn_headRead _ _).1
  | elseOpened chain opening =>
      exact (by decide : (Place.inside .inverse [.token .openElse]).ActsOn
        (.token .closeCurly :: expressionStarts.map .token))
  | inverse chain ending =>
      rw [positionStack, grow, top_chainStack]
      exact (actsOn_headRead _ _).2
  | endOpened block =>
      rw [positionStack, top_endStack]
      exact (actsOn_endRead _ _).1
  | endPath block path =>
      rw [positionStack, grow, top_endStack]
      exact (actsOn_endRead _ _).2

end TemplateUsage.ShiftReduce
