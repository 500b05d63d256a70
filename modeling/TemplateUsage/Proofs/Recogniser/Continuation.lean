import TemplateUsage.Proofs.Recogniser.Viability

set_option autoImplicit false

/-!
# What can come next

`Position.next` lists the kinds of token that the recogniser takes in at a position, when
the phrases they complete are completed first. Unlike `Position.follow` it looks at what the
position stands in: statements end as their enclosure does, and a call is closed as its site
asks (`Position.takes_iff`). Main statement: `continues_iff`, these kinds, and the end of
the template where nothing encloses the statements, are what the grammar has next.
-/

namespace TemplateUsage

/-- What comes next in a sentence of the grammar that begins with these kinds. -/
def Grammar.Continues (kinds : List Kind) : Lookahead → Prop
  | .token kind => Viable (kinds ++ [kind])
  | .finish => Sentence kinds

namespace Recogniser

open Phrase

/-! ## The kinds at a position -/

/-- Kinds of token that close a call between curly braces. -/
def Site.closers : Site → List Kind
  | .mustache _ true => [.closeTriple]
  | .mustache _ false => [.closeCurly]
  | .head _ => [.blockParams, .closeCurly]
  | .modifier _ => [.closeCurly]

/-- Kinds of token that close the innermost call. -/
def OpenCall.closers (call : OpenCall) : List Kind :=
  match call.pending with
  | [] => call.site.closers
  | _ :: _ => [.closeParen]

/-- Kinds of token that end the statements of an enclosure. -/
def Enclosure.ends : Enclosure → List Kind
  | .element _ _ => [.endTag]
  | .branch _ _ => [.openEndBlock, .openElse]
  | .otherwise _ _ _ _ => [.openEndBlock]

/-- Kinds of token that end the statements. -/
def Content.ends (content : Content) : List Kind :=
  match content.levels with
  | [] => []
  | level :: _ => level.enclosure.ends

/-- Kinds of token that the recogniser takes in next, in a call that these kinds close. -/
def Progress.next (closers : List Kind) : Progress → List Kind
  | .start | .key _ _ _ _ => expressionStarts
  | .arguments _ _ => expressionStarts ++ .hashKey :: closers
  | .pairs _ _ _ => .hashKey :: closers

/-- Kinds of token that the recogniser takes in next. -/
def Position.next : Position → List Kind
  | .content body => statementStarts ++ body.ends
  | .call opened progress => progress.next opened.closers
  | .called opened _ => opened.closers
  | position => position.follow

/-- What can come next at a position. -/
def Position.Admits (position : Position) : Lookahead → Prop
  | .token kind => kind ∈ position.next
  | .finish => ∃ statements, position = .content ⟨statements, []⟩

/-! ## Taking a token in -/

/-- Whether a token of this kind is taken in at the position. -/
def Position.takes (position : Position) (kind : Kind) : Bool :=
  ((position.settled.settle (.token kind)).shift? kind).isSome

section Takes

variable {position : Position} {kind : Kind}

/-- A phrase completed before a kind changes nothing about whether the kind is taken. -/
theorem Position.takes_of_reduce {next : Position} (h : position.reduce? kind = some next) :
    position.takes kind = next.takes kind := by
  have hreduce : position.settled.reduce? (.token kind) = some next.settled := by
    show (position.reduce? kind).map Position.settled = _
    rw [h]
    rfl
  rw [takes, Config.settle_of_reduce hreduce, takes]

/-- Where no phrase is completed, the kinds taken are those that can be taken in at once. -/
theorem Position.takes_of_reduce_none (h : position.reduce? kind = none) :
    position.takes kind = (position.shift? kind).isSome := by
  have hreduce : position.settled.reduce? (.token kind) = none := by
    show (position.reduce? kind).map Position.settled = _
    rw [h]
    rfl
  rw [takes, Config.settle_of_reduce_none hreduce]
  rfl

end Takes

theorem isSome_shiftTag (tag : OpenTag) (kind : Kind) :
    (shiftTag? tag kind).isSome = (tagPartStarts ++ tagEnds).contains kind := by
  cases kind <;> rfl

theorem isSome_shiftValue (assignment : Assignment) (kind : Kind) :
    (shiftValue? assignment kind).isSome =
      [Kind.attributeText, .openCurly, .openTriple, .quoteOpen].contains kind := by
  cases kind <;> rfl

theorem isSome_shiftQuoted (quote : OpenQuote) (kind : Kind) :
    (shiftQuoted? quote kind).isSome =
      [Kind.attributeText, .openCurly, .openTriple, .quoteClose].contains kind := by
  cases kind <;> rfl

theorem isSome_shiftExpression (call : OpenCall) {progress : Progress}
    {add : Expression → Progress} (hadd : progress.add? = some add) (kind : Kind) :
    (shiftExpression? call progress kind).isSome = expressionStarts.contains kind := by
  rw [shiftExpression?, hadd]
  cases kind <;> rfl

theorem isSome_shiftCurlyEnd (site : Site) (opening : Lexeme) (call : Call) (kind : Kind) :
    (shiftCurlyEnd? site opening call kind).isSome = site.closers.contains kind := by
  cases site with
  | mustache site trusting => cases trusting <;> cases kind <;> rfl
  | head site => cases kind <;> rfl
  | modifier tag => cases kind <;> rfl

/-- The kinds that end a call are its closers. -/
theorem isSome_shiftCallEnd {call : OpenCall} (hnested : ∀ waiting ∈ call.pending, waiting.Takes)
    (complete : Call) (kind : Kind) :
    (shiftCallEnd? call complete kind).isSome = call.closers.contains kind := by
  obtain ⟨site, opening, pending⟩ := call
  cases pending with
  | nil => exact isSome_shiftCurlyEnd site opening complete kind
  | cons waiting pending =>
      obtain ⟨add, hadd⟩ := hnested waiting List.mem_cons_self
      rw [shiftCallEnd?]
      dsimp only
      rw [hadd]
      cases kind <;> rfl

theorem reduceChain?_eq_none (chain : Chain) (inverse : Inverse) {kind : Kind}
    (h : kind ≠ .openEndBlock) : reduceChain? chain inverse kind = none := by
  unfold reduceChain?
  split
  · exact absurd rfl h
  · rfl

theorem shiftEnd?_eq_none (chain : Chain) (inverse : Inverse) {kind : Kind}
    (h : kind ≠ .openEndBlock) : shiftEnd? chain inverse kind = none := by
  unfold shiftEnd?
  split
  · exact absurd rfl h
  · rfl

/-- The end of a block is all that comes after the inverse of a section. -/
theorem Position.takes_inverse (outer : Content) (latest : Section) (before : List Section)
    (ending : Inverse) (kind : Kind) :
    (Position.inverse ⟨outer, latest, before⟩ ending).takes kind = true ↔
      kind = .openEndBlock := by
  by_cases hkind : kind = .openEndBlock
  · subst hkind
    refine iff_of_true ?_ rfl
    induction before generalizing latest ending with
    | nil =>
        rw [takes_of_reduce_none rfl]
        rfl
    | cons previous before ih =>
        rw [takes_of_reduce rfl]
        exact ih _ _
  · refine iff_of_false ?_ hkind
    have hreduce : (Position.inverse ⟨outer, latest, before⟩ ending).reduce? kind = none :=
      reduceChain?_eq_none _ _ hkind
    rw [takes_of_reduce_none hreduce, shift?, shiftEnd?_eq_none _ _ hkind]
    exact Bool.false_ne_true

/-- After a section comes an else or the end of the block. -/
theorem Position.takes_sectionEnd (chain : Chain) {kind : Kind}
    (h : kind = .openEndBlock ∨ kind = .openElse) :
    (Position.sectionEnd chain).takes kind = true := by
  obtain ⟨outer, latest, before⟩ := chain
  rcases h with rfl | rfl
  · cases before with
    | nil =>
        rw [takes_of_reduce_none rfl]
        rfl
    | cons previous before =>
        rw [takes_of_reduce rfl]
        exact (takes_inverse outer previous before _ _).2 rfl
  · have hreduce : (Position.sectionEnd ⟨outer, latest, before⟩).reduce? .openElse = none :=
      reduceChain?_eq_none _ _ (by decide)
    rw [takes_of_reduce_none hreduce]
    rfl

/-- A closing tag ends the statements of an element only. -/
theorem isSome_shiftContent (content : Content) (kind : Kind) :
    (shiftContent? content kind).isSome = true ↔
      kind ∈ statementStarts ∨ kind = .endTag ∧ kind ∈ content.ends := by
  by_cases hkind : kind = .endTag
  · subst hkind
    obtain ⟨statements, levels⟩ := content
    match levels with
    | [] => simp [shiftContent?, Content.ends, statementStarts]
    | ⟨.element _ _, _⟩ :: _ =>
        simp [shiftContent?, Content.ends, Enclosure.ends]
    | ⟨.branch _ _, _⟩ :: _ =>
        simp [shiftContent?, Content.ends, Enclosure.ends, statementStarts]
    | ⟨.otherwise _ _ _ _, _⟩ :: _ =>
        simp [shiftContent?, Content.ends, Enclosure.ends, statementStarts]
  · have hstarts : (shiftContent? content kind).isSome = statementStarts.contains kind := by
      cases kind with
      | endTag => exact absurd rfl hkind
      | _ => rfl
    rw [hstarts, List.contains_iff_mem]
    simp [hkind]

section Reduce

variable (statements outer : List Statement) (levels : List Level) (kind : Kind)

theorem Position.reduce?_branch (before : List Section) (head : Head) :
    (Position.content ⟨statements, ⟨.branch before head, outer⟩ :: levels⟩).reduce? kind =
      if kind = .openEndBlock ∨ kind = .openElse then
        some (.sectionEnd ⟨⟨outer, levels⟩, ⟨head, statements.reverse⟩, before⟩)
      else none :=
  rfl

theorem Position.reduce?_otherwise (latest : Section) (before : List Section)
    (opening closing : Lexeme) :
    (Position.content
      ⟨statements, ⟨.otherwise latest before opening closing, outer⟩ :: levels⟩).reduce? kind =
      if kind = .openEndBlock ∨ (kind = .openElse ∧ statements ≠ []) then
        some (.inverse ⟨⟨outer, levels⟩, latest, before⟩
          (.otherwise opening closing statements.reverse))
      else none :=
  rfl

theorem Position.reduce?_attribute (tag : OpenTag) (name : Lexeme) :
    (Position.attribute tag name).reduce? kind =
      if kind ∈ tagPartStarts ++ tagEnds then some (.tag (tag.add (.flag name))) else none := by
  simp [reduce?]

theorem Position.reduce?_call (opened : OpenCall) (progress : Progress) :
    (Position.call opened progress).reduce? kind =
      if kind ∈ callEnds then progress.complete?.map (.called opened) else none := by
  simp [reduce?]

end Reduce

/-- Between statements the kinds taken are those that start a statement and those that end the
level. -/
theorem Position.takes_content (content : Content) (kind : Kind) :
    (Position.content content).takes kind = true ↔ kind ∈ statementStarts ++ content.ends := by
  obtain ⟨statements, levels⟩ := content
  match levels with
  | [] =>
      rw [takes_of_reduce_none rfl, shift?, isSome_shiftContent]
      simp [Content.ends]
  | ⟨.element _ _, _⟩ :: _ =>
      rw [takes_of_reduce_none rfl, shift?, isSome_shiftContent]
      simp [Content.ends, Enclosure.ends]
  | ⟨.branch before head, outer⟩ :: levels =>
      have hreduce := reduce?_branch statements outer levels kind before head
      by_cases hend : kind = .openEndBlock ∨ kind = .openElse
      · rw [if_pos hend] at hreduce
        rw [takes_of_reduce hreduce]
        refine iff_of_true (takes_sectionEnd _ hend) (List.mem_append_right _ ?_)
        simpa [Content.ends, Enclosure.ends] using hend
      · rw [if_neg hend] at hreduce
        rw [takes_of_reduce_none hreduce, shift?, isSome_shiftContent]
        rw [not_or] at hend
        simp [Content.ends, Enclosure.ends, hend]
  | ⟨.otherwise latest before opening closing, outer⟩ :: levels =>
      have hreduce := reduce?_otherwise statements outer levels kind latest before opening closing
      by_cases hend : kind = .openEndBlock ∨ kind = .openElse ∧ statements ≠ []
      · -- before an else the statements are completed all the same, and it is refused then
        rw [if_pos hend] at hreduce
        rw [takes_of_reduce hreduce, takes_inverse]
        rcases hend with rfl | ⟨rfl, -⟩
        · simp [Content.ends, Enclosure.ends]
        · simp [Content.ends, Enclosure.ends, statementStarts]
      · rw [if_neg hend] at hreduce
        rw [takes_of_reduce_none hreduce, shift?, isSome_shiftContent]
        rw [not_or] at hend
        simp [Content.ends, Enclosure.ends, hend.1]

theorem OpenCall.closers_subset (call : OpenCall) : call.closers ⊆ callEnds := by
  obtain ⟨site, opening, pending⟩ := call
  cases pending with
  | cons waiting pending => simp [closers, callEnds]
  | nil =>
      cases site with
      | mustache site trusting => cases trusting <;> simp [closers, Site.closers, callEnds]
      | head site => simp [closers, Site.closers, callEnds]
      | modifier tag => simp [closers, Site.closers, callEnds]

theorem isSome_shiftCall (call : OpenCall) (progress : Progress) (kind : Kind) :
    (shiftCall? call progress kind).isSome = true ↔
      kind ∈ expressionStarts ∧ progress.add?.isSome = true ∨
        kind = .hashKey ∧ progress.addKey?.isSome = true := by
  by_cases hkey : kind = .hashKey
  · subst hkey
    simp [shiftCall?, expressionStarts]
  · have hshift : shiftCall? call progress kind = shiftExpression? call progress kind := by
      unfold shiftCall?
      split
      · exact absurd rfl hkey
      · rfl
    rw [hshift]
    cases hadd : progress.add? with
    | none => simp [shiftExpression?, hadd, hkey]
    | some add =>
        rw [isSome_shiftExpression call hadd, List.contains_iff_mem]
        simp [hkey]

/-- A call goes on with its arguments, or is closed once it is complete. -/
theorem Position.takes_call {opened : OpenCall}
    (hnested : ∀ waiting ∈ opened.pending, waiting.Takes) (progress : Progress) (kind : Kind) :
    (Position.call opened progress).takes kind = true ↔ kind ∈ progress.next opened.closers := by
  have hreduce := reduce?_call kind opened progress
  by_cases hend : kind ∈ callEnds ∧ ∃ complete, progress.complete? = some complete
  · obtain ⟨hend, complete, hcomplete⟩ := hend
    have hother : ∀ kind ∈ callEnds, kind ∉ expressionStarts ∧ kind ≠ .hashKey := by decide
    rw [if_pos hend, hcomplete] at hreduce
    rw [takes_of_reduce hreduce, takes_of_reduce_none rfl, shift?, isSome_shiftCallEnd hnested,
      List.contains_iff_mem]
    cases progress with
    | start | key => cases hcomplete
    | arguments | pairs => simp [Progress.next, hother kind hend]
  · have hnone : (Position.call opened progress).reduce? kind = none := by
      rw [hreduce]
      split
      · cases hcomplete : progress.complete? with
        | none => rfl
        | some complete => exact absurd ⟨‹_›, complete, hcomplete⟩ hend
      · rfl
    rw [takes_of_reduce_none hnone, shift?, isSome_shiftCall]
    cases progress with
    | start | key => simp [Progress.next, Progress.add?, Progress.addKey?]
    | arguments | pairs =>
        have hclosers : kind ∉ opened.closers :=
          fun hmem => hend ⟨opened.closers_subset hmem, _, rfl⟩
        simp [Progress.next, Progress.add?, Progress.addKey?, hclosers]

/-- What the recogniser takes in at a position is as listed. -/
theorem Position.takes_iff {position : Position} (hnested : position.Nested) (kind : Kind) :
    position.takes kind = true ↔ kind ∈ position.next := by
  cases position with
  | content body => exact takes_content body kind
  | tag opened =>
      rw [takes_of_reduce_none rfl, shift?, isSome_shiftTag, List.contains_iff_mem]
      rfl
  | «attribute» opened name =>
      -- an attribute is completed by what may follow it; an equals sign goes on with it
      have hreduce := reduce?_attribute kind opened name
      by_cases hmem : kind ∈ tagPartStarts ++ tagEnds
      · rw [if_pos hmem] at hreduce
        rw [takes_of_reduce hreduce, takes_of_reduce_none rfl, shift?, isSome_shiftTag,
          List.contains_iff_mem]
        exact iff_of_true hmem (List.mem_cons_of_mem _ hmem)
      · rw [if_neg hmem] at hreduce
        rw [takes_of_reduce_none hreduce]
        by_cases hequals : kind = .equals
        · subst hequals
          exact iff_of_true rfl List.mem_cons_self
        · rw [shift?, if_neg hequals]
          exact iff_of_false Bool.false_ne_true fun h => (List.mem_cons.1 h).elim hequals hmem
  | assigned assignment =>
      rw [takes_of_reduce_none rfl, shift?, isSome_shiftValue, List.contains_iff_mem]
      rfl
  | quoted quote =>
      rw [takes_of_reduce_none rfl, shift?, isSome_shiftQuoted, List.contains_iff_mem]
      rfl
  | call opened progress => exact takes_call hnested progress kind
  | called opened complete =>
      rw [takes_of_reduce_none rfl, shift?, isSome_shiftCallEnd hnested, List.contains_iff_mem]
      rfl
  | params site opening complete names =>
      rw [takes_of_reduce_none rfl]
      cases kind <;> simp [shift?, next, follow]
  | sectionEnd chain =>
      by_cases hend : kind = .openEndBlock ∨ kind = .openElse
      · refine iff_of_true (takes_sectionEnd chain hend) ?_
        simpa [next, follow, or_comm] using hend
      · rw [not_or] at hend
        have hreduce : (Position.sectionEnd chain).reduce? kind = none :=
          reduceChain?_eq_none _ _ hend.1
        rw [takes_of_reduce_none hreduce, shift?, if_neg hend.2, shiftEnd?_eq_none _ _ hend.1]
        simp [next, follow, hend]
  | elseOpened chain opening =>
      rw [takes_of_reduce_none rfl]
      by_cases hclose : kind = .closeCurly
      · subst hclose
        exact iff_of_true rfl List.mem_cons_self
      · rw [shift?, if_neg hclose, isSome_shiftExpression _ rfl, List.contains_iff_mem]
        simp [next, follow, hclose]
  | inverse chain ending =>
      rw [takes_inverse]
      simp [next, follow]
  | endOpened block =>
      rw [takes_of_reduce_none rfl]
      cases kind <;> simp [shift?, next, follow]
  | endPath block path =>
      rw [takes_of_reduce_none rfl]
      cases kind <;> simp [shift?, next, follow]

/-! ## What the grammar has next -/

theorem Content.ends_subset (content : Content) : content.ends ⊆ contentEnds := by
  obtain ⟨statements, levels⟩ := content
  match levels with
  | [] => exact List.nil_subset _
  | ⟨.element _ _, _⟩ :: _ => simp [ends, Enclosure.ends, contentEnds]
  | ⟨.branch _ _, _⟩ :: _ => simp [ends, Enclosure.ends, contentEnds]
  | ⟨.otherwise _ _ _ _, _⟩ :: _ => simp [ends, Enclosure.ends, contentEnds]

theorem Progress.next_subset_follow (progress : Progress) {closers : List Kind}
    (h : closers ⊆ callEnds) : progress.next closers ⊆ progress.follow := by
  have hcloses : Kind.hashKey :: closers ⊆ .hashKey :: callEnds := List.cons_subset_cons _ h
  cases progress with
  | start | key => exact List.Subset.refl _
  | arguments =>
      show expressionStarts ++ .hashKey :: closers ⊆ expressionStarts ++ .hashKey :: callEnds
      exact List.append_subset.2
        ⟨List.subset_append_left _ _, List.subset_append_of_subset_right _ hcloses⟩
  | pairs =>
      show Kind.hashKey :: closers ⊆ expressionStarts ++ .hashKey :: callEnds
      exact List.subset_append_of_subset_right _ hcloses

/-- Whatever is taken in at a position is what a phrase there can be followed by. -/
theorem Position.next_subset_follow (position : Position) : position.next ⊆ position.follow := by
  cases position with
  | content body =>
      show statementStarts ++ body.ends ⊆ statementStarts ++ contentEnds
      exact List.append_subset.2 ⟨List.subset_append_left _ _,
        List.subset_append_of_subset_right _ body.ends_subset⟩
  | call opened progress => exact progress.next_subset_follow opened.closers_subset
  | called opened complete => exact opened.closers_subset
  | _ => exact List.Subset.refl _

/-- Either all checks let pass what comes next, or the first that does not stops it. -/
theorem Config.settle_cases (position : Position) (checks : List Follow) (look : Lookahead) :
    (∀ check ∈ checks, check.allows look = true) ∨
      ∃ check rest, check ∈ checks ∧ check.allows look = false ∧
        (Config.mk position checks).settle look = ⟨position, check :: rest⟩ := by
  induction checks with
  | nil => exact .inl (List.forall_mem_nil _)
  | cons check checks ih =>
      cases hallows : check.allows look with
      | false =>
          refine .inr ⟨check, checks, List.mem_cons_self, hallows, ?_⟩
          apply Config.settle_of_reduce_none
          show (if check.allows look then _ else none) = none
          rw [hallows]
          rfl
      | true =>
          have hreduce : (Config.mk position (check :: checks)).reduce? look =
              some ⟨position, checks⟩ := by
            show (if check.allows look then _ else none) = _
            rw [hallows]
            rfl
          rcases ih with hall | ⟨stop, rest, hmem, hstop, hsettle⟩
          · exact .inl (List.forall_mem_cons.2 ⟨hallows, hall⟩)
          · refine .inr ⟨stop, rest, List.mem_cons_of_mem _ hmem, hstop, ?_⟩
            rw [Config.settle_of_reduce hreduce, hsettle]

/-- A token is read exactly when its kind is among those that come next. -/
theorem Config.exists_read_iff {config : Config} (hconfig : config.Ready) (token : Token) :
    (∃ next, config.read token = .ok next) ↔ token.kind ∈ config.position.next := by
  have hshift : (∃ next, config.read token = .ok next) ↔
      ((config.settle (.token token.kind)).shift? token.kind).isSome = true := by
    rw [read]
    split
    · rename_i next hnext
      simp [hnext]
    · rename_i hnone
      simp [hnone]
  rw [hshift, ← Position.takes_iff hconfig.nested]
  obtain ⟨position, checks⟩ := config
  rcases settle_cases position checks (.token token.kind) with
    hall | ⟨check, rest, hmem, hstop, hsettle⟩
  · rw [settle_of_allows hall]
    rfl
  · rw [hsettle]
    refine iff_of_false Bool.false_ne_true ?_
    rw [Position.takes_iff hconfig.nested]
    intro hnext
    have hallows := (hconfig.fits check hmem).allows _ (position.next_subset_follow hnext)
    rw [hstop] at hallows
    cases hallows

theorem Position.isSome_accept (position : Position) :
    position.accept?.isSome = true ↔ position.Admits .finish := by
  constructor
  · intro h
    unfold accept? at h
    split at h
    · exact ⟨_, rfl⟩
    · cases h
  · rintro ⟨statements, rfl⟩
    rfl

theorem Config.exists_finish_iff_admits {config : Config} (hconfig : config.Ready) :
    (∃ statements, config.finish = .ok statements) ↔ config.position.Admits .finish := by
  have haccept : (∃ statements, config.finish = .ok statements) ↔
      (config.settle .finish).accept?.isSome = true := by
    rw [finish]
    split
    · rename_i statements hstatements
      simp [hstatements]
    · rename_i hnone
      simp [hnone]
  rw [haccept]
  obtain ⟨position, checks⟩ := config
  rcases settle_cases position checks .finish with hall | ⟨check, rest, hmem, hstop, hsettle⟩
  · rw [settle_of_allows hall, settle_of_reduce_none rfl]
    exact position.isSome_accept
  · rw [hsettle]
    refine iff_of_false Bool.false_ne_true ?_
    rintro ⟨statements, rfl⟩
    have hallows := (hconfig.fits check hmem).allows_finish trivial
    rw [hstop] at hallows
    cases hallows

/-- What a sentence of the grammar has next after some tokens is what can come next where the
recogniser stands after them. -/
theorem continues_iff {front : List Token} {config : Config}
    (hfront : Config.initial.readAll front = .ok config) (look : Lookahead) :
    Grammar.Continues (front.map Token.kind) look ↔ config.position.Admits look := by
  have hready := Config.ready_initial.readAll hfront
  cases look with
  | token kind =>
      -- only the kind matters, so any lexeme does for the token
      let token : Token := ⟨kind, default⟩
      have hkinds : front.map Token.kind ++ [kind] = (front ++ [token]).map Token.kind := by
        rw [List.map_append]
        rfl
      have hread : (∃ final, Config.initial.readAll (front ++ [token]) = .ok final) ↔
          ∃ next, config.read token = .ok next := by
        rw [Config.readAll_append hfront, Config.readAll]
        cases config.read token with
        | ok next => exact iff_of_true ⟨next, rfl⟩ ⟨next, rfl⟩
        | error expected =>
            refine iff_of_false ?_ ?_
            · rintro ⟨final, ⟨⟩⟩
            · rintro ⟨next, ⟨⟩⟩
      show Grammar.Viable (front.map Token.kind ++ [kind]) ↔ kind ∈ config.position.next
      rw [hkinds, ← exists_readAll_iff_viable, hread, Config.exists_read_iff hready]
  | finish =>
      show Grammar.Sentence (front.map Token.kind) ↔ _
      rw [Grammar.sentence_iff_exists_statements, ← Config.exists_finish_iff_admits hready]
      simp only [← recognises_iff, hfront, Except.ok.injEq, exists_eq_left']

end Recogniser

end TemplateUsage
