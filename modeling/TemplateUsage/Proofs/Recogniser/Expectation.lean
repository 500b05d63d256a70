import TemplateUsage.Proofs.Recogniser.Continuation
import TemplateUsage.Proofs.Scan.Vocabulary

set_option autoImplicit false

/-!
# What the recogniser expects

Where the recogniser refuses what comes next it lists all it has an action on. Its actions
are chosen by what can follow a phrase anywhere, so the list may hold what cannot come next
where this phrase stands. `Config.Misnames` tells when: of what is listed, these and no
others cannot come next (`Config.suggests`). That there are no more cases is due to the
scanner, which finds in each construct only tokens of certain kinds.
-/

namespace TemplateUsage

/-- What the scanner may find where these constructs are open. -/
def Lookahead.StandsIn (opened : List Construct) : Lookahead → Prop
  | .token kind => kind ∈ kindsIn opened
  | .finish => opened = []

theorem Lookahead.mem_all (look : Lookahead) : look ∈ Lookahead.all := by
  cases look with
  | finish => exact List.mem_cons_self
  | token kind => cases kind <;> decide

namespace Recogniser

open Phrase

/-! ## Checks -/

/-- The checks there may be to make at a position. -/
def Position.Checked : Position → List Follow → Prop
  | .content _, checks =>
      checks ∈ [[], [.statement], [.curlyComment, .statement], [.mustache, .statement]]
  | .tag _, checks => checks ∈ [[], [.params], [.curlyComment], [.mustache]]
  | .quoted _, checks => checks ∈ [[], [.mustache]]
  | .call _ progress, checks =>
      checks = if progress.complete?.isSome then [.expression] else []
  | .params _ _ _ _, checks => checks = [.params]
  | .endPath _ _, checks => checks = [.expression]
  | .attribute _ _, checks | .assigned _, checks | .elseOpened _ _, checks
  | .endOpened _, checks => checks = []
  | .called _ _, _ | .sectionEnd _, _ | .inverse _ _, _ => False

/-- The checks of a configuration are some its position has. -/
def Config.Checked (config : Config) : Prop := config.position.Checked config.checks

section Shift

variable {kind : Kind} {next : Lexeme → Config} (lexeme : Lexeme)

theorem Progress.isSome_complete_add {progress : Progress} {add : Expression → Progress}
    (hadd : progress.add? = some add) (expression : Expression) :
    (add expression).complete?.isSome = true := by
  cases progress with
  | pairs => cases hadd
  | _ =>
      cases hadd
      rfl

/-- After an expression, what is still to be checked is that the call goes on or ends. -/
theorem checked_expression (call : OpenCall) {progress : Progress} {add : Expression → Progress}
    (hadd : progress.add? = some add) (expression : Expression) :
    ((Position.call call (add expression)).after .expression).Checked := by
  show [Follow.expression] = if (add expression).complete?.isSome then _ else _
  rw [Progress.isSome_complete_add hadd]
  rfl

theorem checked_statement (content : Content) :
    ((Position.content content).after .statement).Checked := by
  simp [Config.Checked, Position.after, Position.Checked]

theorem checked_content (content : Content) : (Position.content content).settled.Checked :=
  List.mem_cons_self

theorem MustacheSite.checked_close (site : MustacheSite) (mustache : Mustache) :
    (site.close mustache).Checked := by
  cases site <;>
    simp [MustacheSite.close, Position.after, Position.afterStatement, Config.Checked,
      Position.Checked]

theorem HeadSite.checked_close (site : HeadSite) (head : Head) :
    (site.close head).settled.Checked := by
  cases site <;> exact checked_content _

/-- After a token of an expression the checks are some that the position has. -/
theorem checked_shiftExpression {call : OpenCall} {progress : Progress}
    (h : shiftExpression? call progress kind = some next) : (next lexeme).Checked := by
  unfold shiftExpression? at h
  split at h
  · cases h
  · rename_i add hadd
    split at h
    · cases h
      rfl
    · obtain ⟨sort, -, rfl⟩ := Option.map_eq_some_iff.1 h
      exact checked_expression call hadd _

theorem checked_shiftCall {call : OpenCall} {progress : Progress}
    (h : shiftCall? call progress kind = some next) : (next lexeme).Checked := by
  unfold shiftCall? at h
  split at h
  · obtain ⟨addKey, hadd, rfl⟩ := Option.map_eq_some_iff.1 h
    cases progress with
    | start | key => cases hadd
    | arguments | pairs =>
        cases hadd
        rfl
  · exact checked_shiftExpression lexeme h

theorem checked_shiftCallEnd {call : OpenCall} {complete : Call}
    (h : shiftCallEnd? call complete kind = some next) : (next lexeme).Checked := by
  obtain ⟨site, opening, pending⟩ := call
  unfold shiftCallEnd? at h
  cases pending with
  | nil =>
      dsimp only at h
      unfold shiftCurlyEnd? at h
      split at h
      · cases h
        exact MustacheSite.checked_close _ _
      · cases h
        exact MustacheSite.checked_close _ _
      · cases h
        exact HeadSite.checked_close _ _
      · cases h
        rfl
      · cases h
        exact List.mem_cons_self
      · cases h
  | cons waiting pending =>
      dsimp only at h
      split at h
      · obtain ⟨add, hadd, rfl⟩ := Option.map_eq_some_iff.1 h
        exact checked_expression _ hadd _
      · cases h

/-- A token read between statements leaves checks that the new position may have. -/
theorem checked_shiftContent {content : Content} (h : shiftContent? content kind = some next) :
    (next lexeme).Checked := by
  unfold shiftContent? at h
  split at h
  · cases h
    exact checked_statement _
  · cases h
    exact checked_statement _
  · cases h
    simp [Position.afterStatement, Config.Checked, Position.Checked]
  · cases h
    rfl
  · cases h
    rfl
  · cases h
    rfl
  · cases h
    exact List.mem_cons_self
  · split at h
    · cases h
      exact checked_statement _
    · cases h
  · cases h

theorem checked_shiftTag {tag : OpenTag} (h : shiftTag? tag kind = some next) :
    (next lexeme).Checked := by
  unfold shiftTag? at h
  split at h
  · cases h
    rfl
  · cases h
    simp [Position.after, Config.Checked, Position.Checked]
  · cases h
    simp [Position.after, Config.Checked, Position.Checked]
  · cases h
    rfl
  · cases h
    exact checked_content _
  · cases h
    exact checked_statement _
  · cases h
    exact checked_statement _
  · cases h

theorem checked_shiftValue {assignment : Assignment}
    (h : shiftValue? assignment kind = some next) : (next lexeme).Checked := by
  unfold shiftValue? at h
  split at h
  · cases h
    exact List.mem_cons_self
  · cases h
    rfl
  · cases h
    rfl
  · cases h
    exact List.mem_cons_self
  · cases h

theorem checked_shiftQuoted {quote : OpenQuote} (h : shiftQuoted? quote kind = some next) :
    (next lexeme).Checked := by
  unfold shiftQuoted? at h
  split at h
  · cases h
    exact List.mem_cons_self
  · cases h
    rfl
  · cases h
    rfl
  · cases h
    exact List.mem_cons_self
  · cases h

theorem checked_shiftEnd {chain : Chain} {inverse : Inverse}
    (h : shiftEnd? chain inverse kind = some next) : (next lexeme).Checked := by
  unfold shiftEnd? at h
  split at h
  · cases h
    rfl
  · cases h

/-- After a token there are only the checks its position has. -/
theorem Position.checked_shift {position : Position} (h : position.shift? kind = some next) :
    (next lexeme).Checked := by
  cases position with
  | content body => exact checked_shiftContent lexeme h
  | tag opened => exact checked_shiftTag lexeme h
  | «attribute» opened name =>
      obtain ⟨rfl, ⟨⟩⟩ := Option.ite_none_right_eq_some.1 h
      rfl
  | assigned assignment => exact checked_shiftValue lexeme h
  | quoted quote => exact checked_shiftQuoted lexeme h
  | call opened progress => exact checked_shiftCall lexeme h
  | called opened complete => exact checked_shiftCallEnd lexeme h
  | params site opening complete names =>
      obtain ⟨rfl, ⟨⟩⟩ := Option.ite_none_right_eq_some.1 h
      exact site.checked_close _
  | sectionEnd chain =>
      by_cases hkind : kind = .openElse
      · subst hkind
        cases h
        rfl
      · rw [Position.shift?, if_neg hkind] at h
        exact checked_shiftEnd lexeme h
  | elseOpened chain opening =>
      by_cases hkind : kind = .closeCurly
      · subst hkind
        cases h
        exact checked_content _
      · rw [Position.shift?, if_neg hkind] at h
        exact checked_shiftExpression lexeme h
  | inverse chain ending => exact checked_shiftEnd lexeme h
  | endOpened block =>
      obtain ⟨rfl, ⟨⟩⟩ := Option.ite_none_right_eq_some.1 h
      rfl
  | endPath block path =>
      obtain ⟨rfl, ⟨⟩⟩ := Option.ite_none_right_eq_some.1 h
      exact checked_statement _

end Shift

/-- A run of the recogniser keeps its checks right. -/
theorem Config.checked_readAll {config final : Config} {tokens : List Token}
    (hconfig : config.Checked) (h : config.readAll tokens = .ok final) : final.Checked := by
  induction tokens generalizing config with
  | nil =>
      cases h
      exact hconfig
  | cons token rest ih =>
      rw [Config.readAll] at h
      split at h
      · rename_i next hread
        obtain ⟨shifted, hshift, rfl⟩ := Config.exists_shift_of_read hread
        exact ih (Position.checked_shift token.lexeme hshift) h
      · cases h

/-! ## What is expected -/

/-- What the recogniser expects at a configuration and cannot come next there. -/
inductive Config.Misnames : Config → Lookahead → Prop where
  /-- After the names that a tag declares, the braces that close the head of a block. -/
  | tagParams {tag : OpenTag} : Misnames ⟨.tag tag, [.params]⟩ (.token .closeCurly)
  /-- After the names that the head of a block declares, the parts and the ends of a tag. -/
  | headParams {site : HeadSite} {opening : Lexeme} {call : Call} {names : Lexeme} {kind : Kind} :
      kind ∈ tagPartStarts ++ tagEnds →
      Misnames ⟨.params site opening call names, [.params]⟩ (.token kind)
  /-- In a tag, after a comment or a mustache, what follows one elsewhere. -/
  | tagPart {tag : OpenTag} {check : Follow} {look : Lookahead} :
      check = .curlyComment ∨ check = .mustache →
      (∀ kind ∈ tagPartStarts ++ tagEnds, look ≠ .token kind) → Misnames ⟨.tag tag, [check]⟩ look
  /-- After a pair of a call, what ends calls that stand elsewhere. -/
  | pairs {opened : OpenCall} {callee : Expression} {args : List Expression} {named : List Pair}
      {kind : Kind} : kind ∈ callEnds → kind ∉ opened.closers →
      Misnames ⟨.call opened (.pairs callee args named), [.expression]⟩ (.token kind)
  /-- After a statement in the plain else of a block, another else. -/
  | otherwise {statement : Statement} {statements outer : List Statement} {latest : Section}
      {before : List Section} {opening closing : Lexeme} {levels : List Level}
      {checks : List Follow} :
      Misnames
        ⟨.content
          ⟨statement :: statements, ⟨.otherwise latest before opening closing, outer⟩ :: levels⟩,
          checks⟩ (.token .openElse)

theorem Config.Misnames.not_admits {config : Config} {look : Lookahead}
    (h : config.Misnames look) : ¬ config.position.Admits look := by
  have hends : ∀ kind ∈ callEnds, kind ≠ .hashKey := by decide
  have htag : ∀ kind ∈ tagPartStarts ++ tagEnds, kind ∉ [Kind.closeCurly] := by decide
  cases h with
  | tagParams => exact fun hmem => htag _ hmem List.mem_cons_self
  | headParams hkind => exact htag _ hkind
  | tagPart hcheck hother =>
      cases look with
      | token kind => exact fun hmem => hother kind hmem rfl
      | finish => exact fun ⟨statements, h⟩ => nomatch h
  | pairs hkind hclosers => exact fun hmem => (List.mem_cons.1 hmem).elim (hends _ hkind) hclosers
  | otherwise => exact (by decide : Kind.openElse ∉ statementStarts ++ [.openEndBlock])

/-- Of what is expected all can come next but what is misnamed, and there is something that
can. -/
structure Config.Suggests (config : Config) (expected : List Lookahead) : Prop where
  admits_iff : ∀ look ∈ expected, config.position.Admits look ↔ ¬ config.Misnames look
  exists_admits : ∃ look ∈ expected, config.position.Admits look

theorem Config.suggests_of_mem {config : Config} {expected : List Lookahead}
    (h : ∀ look ∈ expected, config.position.Admits look ∨ config.Misnames look)
    {look : Lookahead} (hmem : look ∈ expected) (hlook : config.position.Admits look) :
    config.Suggests expected :=
  ⟨fun look hmem => ⟨fun hadmits hmisnames => hmisnames.not_admits hadmits,
    (h look hmem).resolve_right⟩, look, hmem, hlook⟩

/-- What is expected is what the recogniser acts on. -/
theorem Config.mem_expected {config : Config} {look : Lookahead} :
    look ∈ config.expected ↔ config.acts look = true := by
  rw [expected, List.mem_filter]
  exact and_iff_right (Lookahead.mem_all look)

/-- A check that stops what comes next expects what it would let pass. -/
theorem Config.mem_expected_check {position : Position} {check : Follow} {rest : List Follow}
    {look : Lookahead} :
    look ∈ (Config.mk position (check :: rest)).expected ↔ check.allows look = true := by
  rw [mem_expected]
  cases hallows : check.allows look <;> cases look <;>
    simp [acts, reduce?, shift?, accept?, hallows]

/-- With no check to make, what can come next is expected, and what completes a phrase. -/
theorem Position.mem_expected {position : Position} (hnested : position.Nested)
    {look : Lookahead} :
    look ∈ position.settled.expected ↔
      position.Admits look ∨
        ∃ kind next, look = .token kind ∧ position.reduce? kind = some next := by
  rw [Config.mem_expected]
  cases look with
  | finish =>
      have hacts : position.settled.acts .finish = position.accept?.isSome := by
        simp [Config.acts, Config.reduce?, Config.accept?, Position.settled]
      rw [hacts, isSome_accept]
      simp
  | token kind =>
      have hacts : position.settled.acts (.token kind) =
          ((position.reduce? kind).isSome || (position.shift? kind).isSome) := by
        simp [Config.acts, Config.reduce?, Config.shift?, Position.settled]
      rw [hacts]
      show _ ↔ kind ∈ position.next ∨ _
      rw [← takes_iff hnested]
      cases hreduce : position.reduce? kind with
      | some next => simp [hreduce]
      | none => simp [takes_of_reduce_none hreduce, hreduce]

/-! ## Suggestions -/

/-- Where checks stop nothing and no phrase is completed, all that is expected can come next. -/
theorem Config.suggests_settled {position : Position} {checks : List Follow} {look : Lookahead}
    (hnested : position.Nested)
    (hsettle : (Config.mk position checks).settle look = position.settled)
    (hreduce : ∀ kind next, position.reduce? kind = some next →
      position.Admits (.token kind) ∨ (Config.mk position checks).Misnames (.token kind))
    {named : Kind} (hnamed : named ∈ position.next) :
    (Config.mk position checks).Suggests ((Config.mk position checks).settle look).expected := by
  rw [hsettle]
  have hadmits : position.Admits (.token named) := hnamed
  refine suggests_of_mem ?_ ((Position.mem_expected hnested).2 (.inl hadmits)) hadmits
  intro other hother
  rcases (Position.mem_expected hnested).1 hother with hadmits | ⟨kind, next, rfl, hnext⟩
  · exact .inl hadmits
  · exact hreduce kind next hnext

/-- Before a token that completes no phrase a configuration whose checks let it pass settles at
once. -/
theorem Config.settle_eq_settled {position : Position} {checks : List Follow} {look : Lookahead}
    (hall : ∀ check ∈ checks, check.allows look = true)
    (hreduce : ∀ kind, look = .token kind → position.reduce? kind = none) :
    (Config.mk position checks).settle look = position.settled := by
  rw [settle_of_allows hall]
  apply settle_of_reduce_none
  cases look with
  | finish => rfl
  | token kind =>
      show (position.reduce? kind).map Position.settled = none
      rw [hreduce kind rfl]
      rfl

section Cases

theorem allows_params {look : Lookahead} (h : Follow.params.allows look = true) :
    look = .token .closeCurly ∨ ∃ kind ∈ tagPartStarts ++ tagEnds, look = .token kind := by
  cases look with
  | finish => cases h
  | token kind =>
      rcases List.mem_cons.1 (List.contains_iff_mem.1 h) with rfl | hkind
      · exact .inl rfl
      · exact .inr ⟨kind, hkind, rfl⟩

variable {checks : List Follow} {look : Lookahead}

/-- Where nothing is ever completed, all that is expected can come next. -/
theorem suggests_of_passed {position : Position} (hnested : position.Nested)
    (hall : ∀ check ∈ checks, check.allows look = true)
    (hreduce : ∀ kind, position.reduce? kind = none) {named : Kind}
    (hnamed : named ∈ position.next) :
    (Config.mk position checks).Suggests ((Config.mk position checks).settle look).expected := by
  refine Config.suggests_settled hnested (Config.settle_eq_settled hall fun kind _ => hreduce kind)
    ?_ hnamed
  intro kind next hnext
  rw [hreduce kind] at hnext
  cases hnext

/-- Where the token completes a phrase before it is refused, what is expected is what is
expected then. -/
theorem suggests_of_completed {position next : Position} {kind : Kind}
    (hall : ∀ check ∈ checks, check.allows (.token kind) = true)
    (hreduce : position.reduce? kind = some next) (hdone : next.reduce? kind = none)
    (hnested : next.Nested) (hnext : ∀ look ∈ next.settled.expected, position.Admits look)
    {named : Kind} (hnamed : named ∈ next.next) :
    (Config.mk position checks).Suggests
      ((Config.mk position checks).settle (.token kind)).expected := by
  have hcomplete : position.settled.reduce? (.token kind) = some next.settled := by
    show (position.reduce? kind).map Position.settled = _
    rw [hreduce]
    rfl
  have hsettled : next.settled.settle (.token kind) = next.settled :=
    Config.settle_eq_settled (List.forall_mem_nil _) fun _ heq => by
      cases heq
      exact hdone
  rw [Config.settle_of_allows hall, Config.settle_of_reduce hcomplete, hsettled]
  have hadmits : next.Admits (.token named) := hnamed
  have hmem := (Position.mem_expected hnested).2 (.inl hadmits)
  exact Config.suggests_of_mem (fun look hlook => .inl (hnext look hlook)) hmem (hnext _ hmem)

theorem mem_expected_called {opened : OpenCall} {complete : Call}
    (hnested : ∀ waiting ∈ opened.pending, waiting.Takes)
    (h : look ∈ (Position.called opened complete).settled.expected) :
    ∃ kind ∈ opened.closers, look = .token kind := by
  have hposition : (Position.called opened complete).Nested := hnested
  rcases (Position.mem_expected hposition).1 h with hadmits | ⟨kind, next, -, hnext⟩
  · cases look with
    | token kind => exact ⟨kind, hadmits, rfl⟩
    | finish =>
        obtain ⟨statements, hcontent⟩ := hadmits
        cases hcontent
  · cases hnext

theorem mem_expected_inverse {chain : Chain} {ending : Inverse}
    (h : look ∈ (Position.inverse chain ending).settled.expected) :
    look = .token .openEndBlock := by
  have hposition : (Position.inverse chain ending).Nested := Position.nested_of_pending rfl
  rcases (Position.mem_expected hposition).1 h with hadmits | ⟨kind, next, rfl, hnext⟩
  · cases look with
    | token kind => exact congrArg _ (List.mem_singleton.1 hadmits)
    | finish =>
        obtain ⟨statements, hcontent⟩ := hadmits
        cases hcontent
  · by_contra hkind
    have hnone : (Position.inverse chain ending).reduce? kind = none :=
      reduceChain?_eq_none _ _ fun heq => hkind (congrArg _ heq)
    rw [hnone] at hnext
    cases hnext

/-- What statements complete ends them where they stand, or is an else where one is not
allowed. -/
theorem Position.reduce?_content_cases {content : Content} {kind : Kind} {next : Position}
    (h : (Position.content content).reduce? kind = some next) :
    (Position.content content).Admits (.token kind) ∨
      kind = .openElse ∧ (∃ chain ending, next = .inverse chain ending) ∧
        (Position.content content).Admits (.token .openEndBlock) ∧
        ∀ checks, (Config.mk (.content content) checks).Misnames (.token .openElse) := by
  obtain ⟨statements, levels⟩ := content
  match levels with
  | [] => cases h
  | ⟨.element _ _, _⟩ :: _ => cases h
  | ⟨.branch before head, outer⟩ :: levels =>
      rw [reduce?_branch] at h
      obtain ⟨hkind, -⟩ := Option.ite_none_right_eq_some.1 h
      left
      refine List.mem_append_right _ ?_
      simpa [Content.ends, Enclosure.ends] using hkind
  | ⟨.otherwise latest before opening closing, outer⟩ :: levels =>
      rw [reduce?_otherwise] at h
      obtain ⟨hkind, hnext⟩ := Option.ite_none_right_eq_some.1 h
      have hend : (Position.content
          ⟨statements, ⟨.otherwise latest before opening closing, outer⟩ :: levels⟩).Admits
          (.token .openEndBlock) := List.mem_append_right _ List.mem_cons_self
      rcases hkind with rfl | ⟨rfl, hstatements⟩
      · exact .inl hend
      · obtain ⟨statement, statements, rfl⟩ := List.exists_cons_of_ne_nil hstatements
        cases hnext
        exact .inr ⟨rfl, ⟨_, _, rfl⟩, hend, fun _ => .otherwise⟩

/-- No check between statements stops what is found there. -/
theorem allows_content {content : Content} {check : Follow}
    (hchecked : (Position.content content).Checked checks) (hmem : check ∈ checks)
    (hlook : look.StandsIn []) : check.allows look = true := by
  have hchecks : ∀ checks ∈ [[], [Follow.statement], [.curlyComment, .statement],
      [.mustache, .statement]], ∀ check ∈ checks, check.allows .finish = true ∧
        ∀ kind ∈ kindsIn [], check.allows (.token kind) = true := by decide
  obtain ⟨hfinish, htoken⟩ := hchecks checks hchecked check hmem
  cases look with
  | finish => exact hfinish
  | token kind => exact htoken kind hlook

/-- Between statements the tokens expected, when one is refused, are a suggestion. -/
theorem suggests_content {content : Content} (hchecked : (Position.content content).Checked checks)
    (hlook : look.StandsIn []) (hrefused : ¬ (Position.content content).Admits look) :
    (Config.mk (.content content) checks).Suggests
      ((Config.mk (.content content) checks).settle look).expected := by
  have hall : ∀ check ∈ checks, check.allows look = true :=
    fun check hmem => allows_content hchecked hmem hlook
  have htext : Kind.text ∈ (Position.content content).next :=
    List.mem_append_left _ (by decide)
  by_cases hcompletes : ∃ kind next, look = .token kind ∧
      (Position.content content).reduce? kind = some next
  · obtain ⟨kind, next, rfl, hnext⟩ := hcompletes
    obtain ⟨rfl, ⟨chain, ending, rfl⟩, hend, -⟩ :=
      (Position.reduce?_content_cases hnext).resolve_left hrefused
    refine suggests_of_completed hall hnext (reduceChain?_eq_none _ _ (by decide))
      (Position.nested_of_pending rfl) ?_ List.mem_cons_self
    intro other hother
    rw [mem_expected_inverse hother]
    exact hend
  · refine Config.suggests_settled (Position.nested_of_pending rfl)
      (Config.settle_eq_settled hall ?_) ?_ htext
    · rintro kind rfl
      rw [Option.eq_none_iff_forall_ne_some]
      exact fun next hnext => hcompletes ⟨kind, next, rfl, hnext⟩
    · intro kind next hnext
      rcases Position.reduce?_content_cases hnext with hadmits | ⟨rfl, -, -, hmisnames⟩
      · exact .inl hadmits
      · exact .inr (hmisnames checks)

theorem suggests_tag {tag : OpenTag} (hchecked : (Position.tag tag).Checked checks) :
    (Config.mk (.tag tag) checks).Suggests
      ((Config.mk (.tag tag) checks).settle look).expected := by
  have hend : (Position.tag tag).Admits (.token .tagSelfClose) :=
    (by decide : Kind.tagSelfClose ∈ tagPartStarts ++ tagEnds)
  rcases Config.settle_cases (.tag tag) checks look with hall | ⟨check, rest, hmem, hstop, hsettle⟩
  · exact suggests_of_passed (Position.nested_of_pending rfl) hall (fun _ => rfl) hend
  · rw [hsettle]
    have hallows : ∀ checks ∈ [[], [Follow.params], [.curlyComment], [.mustache]],
        ∀ check ∈ checks, check.allows (.token .tagSelfClose) = true := by decide
    refine Config.suggests_of_mem ?_
      (Config.mem_expected_check.2 (hallows checks hchecked check hmem)) hend
    intro other hother
    rw [Config.mem_expected_check] at hother
    by_cases hpart : ∃ kind ∈ tagPartStarts ++ tagEnds, other = .token kind
    · obtain ⟨kind, hkind, rfl⟩ := hpart
      exact .inl hkind
    · right
      simp only [Position.Checked, List.mem_cons, List.not_mem_nil, or_false] at hchecked
      rcases hchecked with rfl | rfl | rfl | rfl
      · cases hmem
      · cases List.mem_singleton.1 hmem
        rcases allows_params hother with rfl | hkind
        · exact .tagParams
        · exact absurd hkind hpart
      · exact .tagPart (.inl rfl) fun kind hkind heq => hpart ⟨kind, hkind, heq⟩
      · exact .tagPart (.inr rfl) fun kind hkind heq => hpart ⟨kind, hkind, heq⟩

theorem suggests_params {site : HeadSite} {opening : Lexeme} {call : Call} {names : Lexeme} :
    (Config.mk (.params site opening call names) [.params]).Suggests
      ((Config.mk (.params site opening call names) [.params]).settle look).expected := by
  have hclose : (Position.params site opening call names).Admits (.token .closeCurly) :=
    List.mem_cons_self
  rcases Config.settle_cases (.params site opening call names) [.params] look with
    hall | ⟨check, rest, hmem, -, hsettle⟩
  · exact suggests_of_passed (Position.nested_of_pending rfl) hall (fun _ => rfl) hclose
  · cases List.mem_singleton.1 hmem
    rw [hsettle]
    refine Config.suggests_of_mem ?_ (Config.mem_expected_check.2 rfl) hclose
    intro other hother
    rcases allows_params (Config.mem_expected_check.1 hother) with rfl | ⟨kind, hkind, rfl⟩
    · exact .inl hclose
    · exact .inr (.headParams hkind)

theorem OpenCall.exists_mem_closers (call : OpenCall) : ∃ kind, kind ∈ call.closers := by
  obtain ⟨site, opening, pending⟩ := call
  cases pending with
  | cons waiting pending => exact ⟨_, List.mem_cons_self⟩
  | nil =>
      cases site with
      | mustache site trusting => cases trusting <;> exact ⟨_, List.mem_cons_self⟩
      | head site => exact ⟨_, List.mem_cons_self⟩
      | modifier tag => exact ⟨_, List.mem_cons_self⟩

theorem allows_expression {opened : List Construct}
    (hlook : look.StandsIn (.expression :: opened)) : Follow.expression.allows look = true := by
  cases look with
  | finish => cases hlook
  | token kind =>
      exact (by decide : ∀ kind ∈ Construct.expression.kinds,
        Follow.expression.allows (.token kind) = true) kind hlook

/-- Once a call is complete, what ends calls elsewhere is expected unless one of these ends
is what comes next. -/
theorem suggests_complete {opened : OpenCall} {progress : Progress} {complete : Call}
    (hnested : ∀ waiting ∈ opened.pending, waiting.Takes)
    (hcomplete : progress.complete? = some complete)
    (hall : ∀ check ∈ checks, check.allows look = true)
    (hmisnames : (∀ kind ∈ callEnds, look ≠ .token kind) →
      ∀ kind ∈ callEnds, kind ∉ opened.closers →
        (Config.mk (.call opened progress) checks).Misnames (.token kind)) :
    (Config.mk (.call opened progress) checks).Suggests
      ((Config.mk (.call opened progress) checks).settle look).expected := by
  have hcloses : ∀ kind ∈ opened.closers, (Position.call opened progress).Admits (.token kind) := by
    intro kind hkind
    cases progress with
    | start | key => cases hcomplete
    | arguments => exact List.mem_append_right _ (List.mem_cons_of_mem _ hkind)
    | pairs => exact List.mem_cons_of_mem _ hkind
  have hreduce : ∀ kind ∈ callEnds,
      (Position.call opened progress).reduce? kind = some (.called opened complete) := by
    intro kind hkind
    rw [Position.reduce?_call, if_pos hkind, hcomplete]
    rfl
  obtain ⟨close, hclose⟩ := opened.exists_mem_closers
  -- any end of calls completes this one, and then only its own closers are expected
  by_cases hend : ∃ kind ∈ callEnds, look = .token kind
  · obtain ⟨kind, hkind, rfl⟩ := hend
    refine suggests_of_completed hall (hreduce kind hkind) rfl hnested ?_ hclose
    intro other hother
    obtain ⟨kind, hkind, rfl⟩ := mem_expected_called hnested hother
    exact hcloses kind hkind
  · have hother : ∀ kind ∈ callEnds, look ≠ .token kind := fun kind hkind heq =>
      hend ⟨kind, hkind, heq⟩
    refine Config.suggests_settled hnested (Config.settle_eq_settled hall ?_) ?_
      (hcloses close hclose)
    · rintro kind rfl
      rw [Position.reduce?_call, if_neg fun hkind => hother kind hkind rfl]
    · intro kind next hnext
      rw [Position.reduce?_call] at hnext
      obtain ⟨hkind, -⟩ := Option.ite_none_right_eq_some.1 hnext
      by_cases hcloser : kind ∈ opened.closers
      · exact .inl (hcloses kind hcloser)
      · exact .inr (hmisnames hother kind hkind hcloser)

theorem suggests_call {opened : OpenCall} {progress : Progress}
    (hnested : ∀ waiting ∈ opened.pending, waiting.Takes)
    (hchecked : (Position.call opened progress).Checked checks)
    (hlook : look.StandsIn (Position.call opened progress).opened)
    (hrefused : ¬ (Position.call opened progress).Admits look) :
    (Config.mk (.call opened progress) checks).Suggests
      ((Config.mk (.call opened progress) checks).settle look).expected := by
  have hallows := allows_expression hlook
  have hreduce : progress.complete? = none → ∀ kind,
      (Position.call opened progress).reduce? kind = none := by
    intro hcomplete kind
    rw [Position.reduce?_call, hcomplete]
    exact ite_self _
  cases progress with
  | start | key =>
      subst hchecked
      have hpath : Kind.path ∈ expressionStarts := by decide
      exact suggests_of_passed hnested (List.forall_mem_nil _) (hreduce rfl) hpath
  | arguments callee args =>
      subst hchecked
      refine suggests_complete hnested rfl (List.forall_mem_singleton.2 hallows) fun hother => ?_
      cases look with
      | finish => cases hlook
      | token kind =>
          -- whatever is found in an expression goes on with these arguments or ends a call
          have hkinds : ∀ kind ∈ Construct.expression.kinds,
              kind ∈ expressionStarts ++ [.hashKey] ∨ kind ∈ callEnds := by decide
          refine absurd ?_ hrefused
          show kind ∈ expressionStarts ++ .hashKey :: opened.closers
          rw [List.append_cons]
          exact List.mem_append_left _ ((hkinds kind hlook).resolve_right fun hkind =>
            hother kind hkind rfl)
  | pairs callee args named =>
      subst hchecked
      exact suggests_complete hnested rfl (List.forall_mem_singleton.2 hallows)
        fun _ kind hkind hcloser => .pairs hkind hcloser

end Cases

/-- Where the recogniser refuses what comes next, of all it expects just what is misnamed cannot
come next. -/
theorem Config.suggests {config : Config} (hready : config.Ready) (hchecked : config.Checked)
    {look : Lookahead} (hlook : look.StandsIn config.position.opened)
    (hrefused : ¬ config.position.Admits look) :
    config.Suggests (config.settle look).expected := by
  obtain ⟨position, checks⟩ := config
  cases position with
  | content body => exact suggests_content hchecked hlook hrefused
  | tag opened => exact suggests_tag hchecked
  | «attribute» opened name =>
      cases hchecked
      -- what completes an attribute without a value is also taken in then
      have hreduce : ∀ kind next, (Position.attribute opened name).reduce? kind = some next →
          (Position.attribute opened name).Admits (.token kind) := by
        intro kind next hnext
        rw [Position.reduce?_attribute] at hnext
        exact List.mem_cons_of_mem _ (Option.ite_none_right_eq_some.1 hnext).1
      refine suggests_settled hready.nested (settle_eq_settled (List.forall_mem_nil _) ?_)
        (fun kind next hnext => .inl (hreduce kind next hnext)) List.mem_cons_self
      rintro kind rfl
      rw [Option.eq_none_iff_forall_ne_some]
      exact fun next hnext => hrefused (hreduce kind next hnext)
  | assigned assignment =>
      cases hchecked
      exact suggests_of_passed hready.nested (List.forall_mem_nil _) (fun _ => rfl)
        List.mem_cons_self
  | quoted quote =>
      have hall : ∀ checks ∈ [[], [Follow.mustache]], ∀ check ∈ checks,
          ∀ kind ∈ Construct.quoted.kinds, check.allows (.token kind) = true := by decide
      cases look with
      | finish => cases hlook
      | token kind =>
          exact suggests_of_passed hready.nested
            (fun check hmem => hall checks hchecked check hmem kind hlook) (fun _ => rfl)
            List.mem_cons_self
  | call opened progress => exact suggests_call hready.nested hchecked hlook hrefused
  | called opened complete => exact hchecked.elim
  | params site opening complete names =>
      cases hchecked
      exact suggests_params
  | sectionEnd chain => exact hchecked.elim
  | inverse chain ending => exact hchecked.elim
  | elseOpened chain opening =>
      cases hchecked
      exact suggests_of_passed hready.nested (List.forall_mem_nil _) (fun _ => rfl)
        List.mem_cons_self
  | endOpened block =>
      cases hchecked
      exact suggests_of_passed hready.nested (List.forall_mem_nil _) (fun _ => rfl)
        List.mem_cons_self
  | endPath block path =>
      cases hchecked
      exact suggests_of_passed hready.nested
        (List.forall_mem_singleton.2 (allows_expression hlook)) (fun _ => rfl) List.mem_cons_self

/-- After tokens that are taken in, of all that is expected just what is misnamed cannot come
next, if what is refused is what the scanner may find there. -/
theorem suggests_of_readAll {front : List Token} {config : Config}
    (hfront : Config.initial.readAll front = .ok config) {look : Lookahead}
    (hlook : look.StandsIn (Scan.openAfter [] front)) (hrefused : ¬ config.position.Admits look) :
    config.Suggests (config.settle look).expected := by
  have hchecked : config.Checked := Config.checked_readAll (checked_content _) hfront
  rw [← (Config.aligned_initial.readAll hfront).opened_eq] at hlook
  exact Config.suggests (Config.ready_initial.readAll hfront) hchecked hlook hrefused

end Recogniser

end TemplateUsage
