import TemplateUsage.Proofs.Parsing
import TemplateUsage.Proofs.Recogniser.Alignment

set_option autoImplicit false

/-!
# What has been read can be completed

The recogniser completes phrases before it finds that a token cannot be taken in, so
that it reads a token is no sign by itself that the template can still be finished. It
can: from every position at which the recogniser waits some tokens lead to a complete
template (`Position.completable`), provided that every call in parentheses has a place
in the call around it (`Position.Nested`), which each token keeps. Main statement:
`exists_readAll_iff_viable`, tokens are all taken in exactly when their kinds are the
beginning of a sentence of the grammar.
-/

namespace TemplateUsage

open Phrase

namespace Grammar

/-- The kinds of the tokens of a template. -/
def Sentence (kinds : List Kind) : Prop := Derives [.phrase .start] kinds

/-- The beginning of a sentence. -/
def Viable (kinds : List Kind) : Prop := ∃ more, Sentence (kinds ++ more)

theorem sentence_iff_exists_statements (tokens : List Token) :
    Sentence (tokens.map Token.kind) ↔ ∃ statements, statementTokens statements = tokens := by
  constructor
  · intro h
    obtain ⟨tree, htree⟩ := (derives_iff_exists_tree tokens).1 h
    obtain ⟨statements, -, htokens⟩ := (derivation_iff_exists_statements tree tokens).1 htree
    exact ⟨statements, htokens⟩
  · rintro ⟨statements, htokens⟩
    refine (derives_iff_exists_tree tokens).2 ⟨templateTree statements, ?_⟩
    exact (derivation_iff_exists_statements _ tokens).2 ⟨statements, rfl, htokens⟩

end Grammar

namespace Recogniser

/-! ## Calls in parentheses -/

/-- The calls that wait for the call in parentheses they contain. -/
def Position.pending : Position → List Pending
  | .call opened _ | .called opened _ => opened.pending
  | _ => []

/-- An expression can stand where the call has been read up to. -/
def Pending.Takes (waiting : Pending) : Prop := ∃ add, waiting.progress.add? = some add

/-- Every call in parentheses has a place in the call around it. -/
def Position.Nested (position : Position) : Prop :=
  ∀ waiting ∈ position.pending, waiting.Takes

theorem Position.nested_of_pending {position : Position} (h : position.pending = []) :
    position.Nested := by
  rw [Position.Nested, h]
  exact List.forall_mem_nil _

section Shift

variable {kind : Kind} {next : Lexeme → Config} (lexeme : Lexeme)

theorem MustacheSite.pending_close (site : MustacheSite) (mustache : Mustache) :
    (site.close mustache).position.pending = [] := by
  cases site <;> rfl

theorem HeadSite.pending_close (site : HeadSite) (head : Head) :
    (site.close head).pending = [] := by
  cases site <;> rfl

theorem nested_shiftExpression {call : OpenCall} {progress : Progress}
    (hcall : ∀ waiting ∈ call.pending, waiting.Takes)
    (h : shiftExpression? call progress kind = some next) : (next lexeme).position.Nested := by
  unfold shiftExpression? at h
  split at h
  · cases h
  · rename_i add hadd
    split at h
    · -- the call is left for the one in parentheses where an expression can stand
      cases h
      intro waiting hmem
      rcases List.mem_cons.1 hmem with rfl | hmem
      · exact ⟨add, hadd⟩
      · exact hcall waiting hmem
    · obtain ⟨sort, -, rfl⟩ := Option.map_eq_some_iff.1 h
      exact hcall

theorem nested_shiftCall {call : OpenCall} {progress : Progress}
    (hcall : ∀ waiting ∈ call.pending, waiting.Takes)
    (h : shiftCall? call progress kind = some next) : (next lexeme).position.Nested := by
  unfold shiftCall? at h
  split at h
  · obtain ⟨addKey, -, rfl⟩ := Option.map_eq_some_iff.1 h
    exact hcall
  · exact nested_shiftExpression lexeme hcall h

theorem pending_shiftCurlyEnd {site : Site} {opening : Lexeme} {call : Call}
    (h : shiftCurlyEnd? site opening call kind = some next) :
    (next lexeme).position.pending = [] := by
  unfold shiftCurlyEnd? at h
  split at h
  · cases h
    exact MustacheSite.pending_close _ _
  · cases h
    exact MustacheSite.pending_close _ _
  · cases h
    exact HeadSite.pending_close _ _
  · cases h
    rfl
  · cases h
    rfl
  · cases h

/-- The end of a call in parentheses hands it to the call around it. -/
theorem nested_shiftCallEnd {call : OpenCall} {complete : Call}
    (hcall : ∀ waiting ∈ call.pending, waiting.Takes)
    (h : shiftCallEnd? call complete kind = some next) : (next lexeme).position.Nested := by
  obtain ⟨site, opening, pending⟩ := call
  unfold shiftCallEnd? at h
  cases pending with
  | nil => exact Position.nested_of_pending (pending_shiftCurlyEnd lexeme h)
  | cons waiting pending =>
      dsimp only at h
      split at h
      · obtain ⟨add, -, rfl⟩ := Option.map_eq_some_iff.1 h
        exact fun other hother => hcall other (List.mem_cons_of_mem _ hother)
      · cases h

theorem pending_shiftContent {content : Content} (h : shiftContent? content kind = some next) :
    (next lexeme).position.pending = [] := by
  unfold shiftContent? at h
  split at h
  case h_8 =>
    split at h
    · cases h
      rfl
    · cases h
  all_goals
    cases h
  all_goals rfl

theorem pending_shiftTag {tag : OpenTag} (h : shiftTag? tag kind = some next) :
    (next lexeme).position.pending = [] := by
  unfold shiftTag? at h
  split at h <;> cases h
  all_goals rfl

theorem pending_shiftValue {assignment : Assignment}
    (h : shiftValue? assignment kind = some next) : (next lexeme).position.pending = [] := by
  unfold shiftValue? at h
  split at h <;> cases h
  all_goals rfl

theorem pending_shiftQuoted {quote : OpenQuote} (h : shiftQuoted? quote kind = some next) :
    (next lexeme).position.pending = [] := by
  unfold shiftQuoted? at h
  split at h <;> cases h
  all_goals rfl

theorem pending_shiftEnd {chain : Chain} {inverse : Inverse}
    (h : shiftEnd? chain inverse kind = some next) : (next lexeme).position.pending = [] := by
  unfold shiftEnd? at h
  split at h <;> cases h
  rfl

/-- Taking a token in keeps calls in parentheses nested. -/
theorem Position.nested_shift {position : Position} (hposition : position.Nested)
    (h : position.shift? kind = some next) : (next lexeme).position.Nested := by
  cases position with
  | content body => exact nested_of_pending (pending_shiftContent lexeme h)
  | tag opened => exact nested_of_pending (pending_shiftTag lexeme h)
  | «attribute» opened name =>
      obtain ⟨rfl, ⟨⟩⟩ := Option.ite_none_right_eq_some.1 h
      exact nested_of_pending rfl
  | assigned assignment => exact nested_of_pending (pending_shiftValue lexeme h)
  | quoted quote => exact nested_of_pending (pending_shiftQuoted lexeme h)
  | call opened progress => exact nested_shiftCall lexeme hposition h
  | called opened complete => exact nested_shiftCallEnd lexeme hposition h
  | params site opening complete names =>
      obtain ⟨rfl, ⟨⟩⟩ := Option.ite_none_right_eq_some.1 h
      exact nested_of_pending (site.pending_close _)
  | sectionEnd chain =>
      by_cases hkind : kind = .openElse
      · subst hkind
        cases h
        exact nested_of_pending rfl
      · rw [Position.shift?, if_neg hkind] at h
        exact nested_of_pending (pending_shiftEnd lexeme h)
  | elseOpened chain opening =>
      by_cases hkind : kind = .closeCurly
      · subst hkind
        cases h
        exact nested_of_pending rfl
      · rw [Position.shift?, if_neg hkind] at h
        exact nested_shiftExpression lexeme (List.forall_mem_nil _) h
  | inverse chain ending => exact nested_of_pending (pending_shiftEnd lexeme h)
  | endOpened block =>
      obtain ⟨rfl, ⟨⟩⟩ := Option.ite_none_right_eq_some.1 h
      exact nested_of_pending rfl
  | endPath block path =>
      obtain ⟨rfl, ⟨⟩⟩ := Option.ite_none_right_eq_some.1 h
      exact nested_of_pending rfl

end Shift

/-- Completing a phrase leaves the waiting calls as they are. -/
theorem Position.pending_reduce {position next : Position} {kind : Kind}
    (h : position.reduce? kind = some next) : next.pending = position.pending := by
  unfold Position.reduce? at h
  split at h
  · unfold reduceContent? at h
    split at h
    · obtain ⟨-, ⟨⟩⟩ := Option.ite_none_right_eq_some.1 h
      rfl
    · obtain ⟨-, ⟨⟩⟩ := Option.ite_none_right_eq_some.1 h
      rfl
    · cases h
  · obtain ⟨-, ⟨⟩⟩ := Option.ite_none_right_eq_some.1 h
    rfl
  · obtain ⟨-, h⟩ := Option.ite_none_right_eq_some.1 h
    obtain ⟨complete, -, rfl⟩ := Option.map_eq_some_iff.1 h
    rfl
  · unfold reduceChain? at h
    split at h <;> cases h
    rfl
  · unfold reduceChain? at h
    split at h <;> cases h
    rfl
  · cases h

theorem Config.nested_read {config next : Config} {token : Token}
    (hconfig : config.position.Nested) (h : config.read token = .ok next) :
    next.position.Nested := by
  obtain ⟨shifted, hshift, rfl⟩ := Config.exists_shift_of_read h
  have hpending : (config.settle (.token token.kind)).position.pending =
      config.position.pending :=
    Config.settle_keeps (fun _ _ _ => Position.pending_reduce) config _
  refine Position.nested_shift token.lexeme ?_ hshift
  rw [Position.Nested, hpending]
  exact hconfig

/-! ## Completions -/

/-- Some tokens lead from the position to a complete template. -/
def Position.Completable (position : Position) : Prop :=
  ∃ tokens statements, Reads position tokens (.content ⟨statements, []⟩)

/-- A position that leads to a completable one is completable. -/
theorem Reads.completable {position next : Position} {tokens : List Token}
    (hread : Reads position tokens next) (hnext : next.Completable) : position.Completable := by
  obtain ⟨more, statements, hmore⟩ := hnext
  exact ⟨tokens ++ more, statements, hread.append hmore⟩

/-- A block is closed after the inverse of any of its sections. -/
theorem completable_inverse (outer : Content)
    (houter : ∀ statement, (Position.content (outer.add statement)).Completable)
    (latest : Section) (before : List Section) (inverse : Inverse) :
    (Position.inverse ⟨outer, latest, before⟩ inverse).Completable := by
  induction before generalizing latest inverse with
  | nil =>
      exact (reads_blockEnd outer latest.head latest.program inverse default).completable
        (houter _)
  | cons previous before ih =>
      exact (reads_chainEnd outer latest previous before inverse).completable (ih previous _)

/-- The enclosures around statements are closed one by one, innermost first. -/
theorem completable_content (content : Content) : (Position.content content).Completable := by
  obtain ⟨statements, levels⟩ := content
  induction levels generalizing statements with
  | nil => exact ⟨[], statements, Reads.refl _⟩
  | cons level levels ih =>
      obtain ⟨enclosure, outer⟩ := level
      cases enclosure with
      | element tag tagEnd =>
          exact (reads_endTag outer statements levels tag tagEnd default).completable (ih _)
      | branch before head =>
          have hinverse := completable_inverse ⟨outer, levels⟩ (fun _ => ih _)
            ⟨head, statements.reverse⟩ before .absent
          exact (reads_sectionEnd outer statements levels before head).completable
            ((reads_absent _).completable hinverse)
      | otherwise latest before opening closing =>
          have hinverse := completable_inverse ⟨outer, levels⟩ (fun _ => ih _)
            latest before (.otherwise opening closing statements.reverse)
          exact (reads_otherwiseEnd ⟨⟨outer, levels⟩, latest, before⟩ opening closing
            statements).completable hinverse

/-- An open tag can be ended by `/>`. -/
theorem completable_tag (tag : OpenTag) : (Position.tag tag).Completable := by
  have hend : Reads (.tag tag) [⟨.tagSelfClose, default⟩]
      (.content (tag.outer.add (.selfClosing tag.tag default))) :=
    Reads.shift rfl rfl (Position.fits_after (Follow.statement_covers _))
      (by decide : Kind.tagSelfClose ∈ tagPartStarts ++ tagEnds) rfl
  exact hend.completable (completable_content _)

theorem completable_assigned (assignment : Assignment) :
    (Position.assigned assignment).Completable :=
  (reads_value assignment (.text default)).completable (completable_tag _)

theorem completable_quoted (quote : OpenQuote) : (Position.quoted quote).Completable :=
  (reads_quoteClosing quote default).completable (completable_tag _)

theorem MustacheSite.completable_close (site : MustacheSite) (mustache : Mustache) :
    (site.close mustache).position.Completable := by
  cases site with
  | statement content => exact completable_content _
  | value assignment => exact completable_tag _
  | quoted quote => exact completable_quoted _

theorem HeadSite.completable_close (site : HeadSite) (head : Head) :
    (site.close head).Completable := by
  cases site <;> exact completable_content _

/-- A complete call between curly braces is closed as its site asks. -/
theorem Site.completable_called (site : Site) (opening : Lexeme) (complete : Call) :
    (Position.called ⟨site, opening, []⟩ complete).Completable := by
  cases site with
  | mustache site trusting =>
      exact (reads_mustacheClosing site trusting opening complete default).completable
        (site.completable_close _)
  | head site =>
      exact (reads_headClosing site opening complete default).completable
        (site.completable_close _)
  | modifier tag =>
      exact (reads_modifierClosing tag opening complete default).completable (completable_tag _)

/-- What has been read of a call is brought to its end by at most one more expression. -/
theorem Progress.reads_called (opened : OpenCall) (progress : Progress) :
    ∃ tokens complete, Reads (.call opened progress) tokens (.called opened complete) := by
  cases progress with
  | start =>
      have hadd : Progress.start.add? = some fun expression => .arguments expression [] := rfl
      exact ⟨_, _, (reads_atom opened hadd .path default).complete (reads_complete opened rfl)⟩
  | arguments callee args => exact ⟨[], _, reads_complete opened rfl⟩
  | key callee args named name =>
      have hadd : (Progress.key callee args named name).add? =
          some fun expression => .pairs callee args (.mk name expression :: named) := rfl
      exact ⟨_, _, (reads_atom opened hadd .path default).complete (reads_complete opened rfl)⟩
  | pairs callee args named => exact ⟨[], _, reads_complete opened rfl⟩

/-- The calls in parentheses are closed one by one, innermost first. -/
theorem completable_called (opened : OpenCall) (complete : Call)
    (hnested : ∀ waiting ∈ opened.pending, waiting.Takes) :
    (Position.called opened complete).Completable := by
  obtain ⟨site, opening, pending⟩ := opened
  induction pending generalizing complete with
  | nil => exact site.completable_called opening complete
  | cons waiting pending ih =>
      obtain ⟨add, hadd⟩ := hnested waiting List.mem_cons_self
      obtain ⟨tokens, outer, hread⟩ :=
        Progress.reads_called ⟨site, opening, pending⟩
          (add (.nested waiting.opening complete default))
      exact (reads_closeParen ⟨site, opening, pending⟩ hadd waiting.opening default
        complete).completable (hread.completable
          (ih outer fun other hother => hnested other (List.mem_cons_of_mem _ hother)))

/-- Some tokens lead from every position the recogniser waits at to a complete template. -/
theorem Position.completable {position : Position} (hwaits : position.Waits)
    (hnested : position.Nested) : position.Completable := by
  cases position with
  | content body => exact completable_content body
  | tag opened => exact completable_tag opened
  | «attribute» opened name =>
      exact (reads_equals opened name default).completable (completable_assigned _)
  | assigned assignment => exact completable_assigned assignment
  | quoted quote => exact completable_quoted quote
  | call opened progress =>
      obtain ⟨tokens, complete, hread⟩ := progress.reads_called opened
      exact hread.completable (completable_called opened complete hnested)
  | called opened complete => exact completable_called opened complete hnested
  | params site opening complete names =>
      exact (reads_paramsClosing site opening complete names default).completable
        (site.completable_close _)
  | sectionEnd chain => exact hwaits.elim
  | elseOpened chain opening =>
      obtain ⟨tokens, complete, hread⟩ :=
        Progress.start.reads_called ⟨.head (.chained chain), opening, []⟩
      exact (reads_elseOpened chain opening).completable
        (hread.completable (Site.completable_called _ opening complete))
  | inverse chain ending => exact hwaits.elim
  | endOpened block =>
      exact (reads_endOpened block default default).completable (completable_content _)
  | endPath block path =>
      exact (reads_endPath block path default).completable (completable_content _)

/-! ## Runs -/

/-- A configuration from which a template can be completed. -/
structure Config.Ready (config : Config) : Prop where
  fits : config.Fits
  waits : config.position.Waits
  nested : config.position.Nested

theorem Config.ready_initial : Config.initial.Ready :=
  ⟨Config.aligned_initial.fits, Config.aligned_initial.waits, Position.nested_of_pending rfl⟩

theorem Config.Ready.read {config next : Config} {token : Token} (hconfig : config.Ready)
    (h : config.read token = .ok next) : next.Ready := by
  have haligned : config.Aligned config.position.opened := ⟨hconfig.fits, hconfig.waits, rfl⟩
  have hnext := haligned.read h
  exact ⟨hnext.fits, hnext.waits, Config.nested_read hconfig.nested h⟩

/-- A run of the recogniser stays ready. -/
theorem Config.Ready.readAll {config final : Config} {tokens : List Token}
    (hconfig : config.Ready) (h : config.readAll tokens = .ok final) : final.Ready := by
  induction tokens generalizing config with
  | nil =>
      cases h
      exact hconfig
  | cons token rest ih =>
      rw [Config.readAll] at h
      split at h
      · rename_i next hread
        exact ih (hconfig.read hread) h
      · cases h

/-- Tokens that are taken in are those of a template, with some more after them. -/
theorem Config.Ready.exists_sentence {config : Config} {tokens : List Token}
    (hconfig : config.Ready) (h : Config.initial.readAll tokens = .ok config) :
    ∃ more statements, statementTokens statements = tokens ++ more := by
  obtain ⟨more, statements, hmore⟩ := Position.completable hconfig.waits hconfig.nested
  obtain ⟨final, hfinal, hat⟩ := hmore config hconfig.fits.at
  refine ⟨more, statements.reverse, (recognises_iff _ _).1 ⟨final, ?_, Config.finish_of_at hat⟩⟩
  exact (Config.readAll_append h more).trans hfinal

/-- Tokens are taken in if more tokens are. -/
theorem Config.exists_readAll_of_append {config final : Config} {front back : List Token}
    (h : config.readAll (front ++ back) = .ok final) :
    ∃ middle, config.readAll front = .ok middle := by
  induction front generalizing config with
  | nil => exact ⟨config, rfl⟩
  | cons token rest ih =>
      rw [List.cons_append, Config.readAll] at h
      rw [Config.readAll]
      split at h
      · rename_i next hread
        obtain ⟨middle, hmiddle⟩ := ih h
        exact ⟨middle, hmiddle⟩
      · cases h

/-- Tokens are all taken in exactly when their kinds begin a sentence of the grammar. -/
theorem exists_readAll_iff_viable (tokens : List Token) :
    (∃ config, Config.initial.readAll tokens = .ok config) ↔
      Grammar.Viable (tokens.map Token.kind) := by
  constructor
  · rintro ⟨config, hread⟩
    obtain ⟨more, statements, hstatements⟩ :=
      (Config.ready_initial.readAll hread).exists_sentence hread
    refine ⟨more.map Token.kind, ?_⟩
    rw [← List.map_append]
    exact (Grammar.sentence_iff_exists_statements _).2 ⟨statements, hstatements⟩
  · rintro ⟨more, hsentence⟩
    -- only the kinds matter, so any lexemes do for the tokens that are missing
    have hmore : more = (more.map fun kind => Token.mk kind default).map Token.kind := by
      rw [List.map_map]
      exact (List.map_id more).symm
    rw [hmore, ← List.map_append] at hsentence
    obtain ⟨statements, hstatements⟩ := (Grammar.sentence_iff_exists_statements _).1 hsentence
    obtain ⟨final, hread, -⟩ := (recognises_iff _ statements).2 hstatements
    exact Config.exists_readAll_of_append hread

end Recogniser

end TemplateUsage
