import TemplateUsage.Proofs.Recogniser.Completeness
import TemplateUsage.Proofs.Scan.Visibility

set_option autoImplicit false

/-!
# The recogniser keeps in step with the scanner

A position of the recogniser says which constructs are open (`Position.opened`), and
taking a token in changes them as the scanner does (`Config.Aligned.read`). Where no
construct is open the recogniser stands between statements, and where a quoted value
is open it stands in one, so it takes in what may hold any character there. Main
statement: `not_fills_of_refusal`, a token of this sort is never the one refused.
-/

namespace TemplateUsage.Recogniser

open Phrase Scan

/-! ## Open constructs -/

/-- The constructs around a mustache, innermost first. -/
def MustacheSite.opened : MustacheSite → List Construct
  | .statement _ => []
  | .value _ => [.tag]
  | .quoted _ => [.quoted, .tag]

/-- The constructs around a call between curly braces. -/
def Site.opened : Site → List Construct
  | .mustache site _ => site.opened
  | .head _ => []
  | .modifier _ => [.tag]

/-- The constructs open at a position. -/
def Position.opened : Position → List Construct
  | .content _ | .sectionEnd _ | .inverse _ _ => []
  | .tag _ | .attribute _ _ | .assigned _ => [.tag]
  | .quoted _ => [.quoted, .tag]
  | .call opened _ | .called opened _ => .expression :: opened.site.opened
  | .params _ _ _ _ | .elseOpened _ _ | .endOpened _ | .endPath _ _ => [.expression]

/-- Whether the recogniser may wait at the position for any token; after a section it
stands only on the way to the token that ends it. -/
def Position.Waits : Position → Prop
  | .sectionEnd _ | .inverse _ _ => False
  | _ => True

/-- The configuration waits at a position with these constructs open. -/
structure Config.Aligned (config : Config) (opened : List Construct) : Prop where
  fits : config.Fits
  waits : config.position.Waits
  opened_eq : config.position.opened = opened

/-! ## Taking a token in -/

section Shift

variable {kind : Kind} {next : Lexeme → Config} (lexeme : Lexeme)

theorem Atom.reshape_of_ofKind? {sort : Atom} (h : Atom.ofKind? kind = some sort)
    (opened : List Construct) : kind.reshape opened = opened := by
  rw [← Atom.kind_of_ofKind? h]
  cases sort <;> rfl

/-- After a mustache the constructs around it are open, as they were before. -/
theorem MustacheSite.aligned_close (site : MustacheSite) (mustache : Mustache) :
    (site.close mustache).Aligned site.opened := by
  refine ⟨site.fits_close mustache, ?_, ?_⟩
  · cases site <;> trivial
  · cases site <;> rfl

theorem HeadSite.aligned_close (site : HeadSite) (head : Head) :
    (site.close head).settled.Aligned [] := by
  cases site <;> exact ⟨Position.fits_settled _, trivial, rfl⟩

/-- Opening an expression puts it on top of the constructs that are open. -/
theorem aligned_openCall (site : Site) :
    (openCall site lexeme).Aligned (.expression :: site.opened) :=
  ⟨Position.fits_settled _, trivial, rfl⟩

/-- Within an expression a token changes the position and the open constructs alike. -/
theorem aligned_shiftExpression {call : OpenCall} {progress : Progress}
    (h : shiftExpression? call progress kind = some next) :
    (next lexeme).Aligned (kind.reshape (.expression :: call.site.opened)) := by
  unfold shiftExpression? at h
  split at h
  · cases h
  · split at h
    · cases h
      exact ⟨Position.fits_settled _, trivial, rfl⟩
    · obtain ⟨sort, hsort, rfl⟩ := Option.map_eq_some_iff.1 h
      rw [Atom.reshape_of_ofKind? hsort]
      exact ⟨Position.fits_after (Follow.expression_covers_call _ _), trivial, rfl⟩

theorem aligned_shiftCall {call : OpenCall} {progress : Progress}
    (h : shiftCall? call progress kind = some next) :
    (next lexeme).Aligned (kind.reshape (.expression :: call.site.opened)) := by
  unfold shiftCall? at h
  split at h
  · obtain ⟨addKey, -, rfl⟩ := Option.map_eq_some_iff.1 h
    exact ⟨Position.fits_settled _, trivial, rfl⟩
  · exact aligned_shiftExpression lexeme h

/-- Closing braces take the expression off both. -/
theorem aligned_shiftCurlyEnd {site : Site} {opening : Lexeme} {call : Call}
    (h : shiftCurlyEnd? site opening call kind = some next) :
    (next lexeme).Aligned (kind.reshape (.expression :: site.opened)) := by
  unfold shiftCurlyEnd? at h
  split at h
  · cases h
    exact MustacheSite.aligned_close _ _
  · cases h
    exact MustacheSite.aligned_close _ _
  · cases h
    exact HeadSite.aligned_close _ _
  · -- block parameters do not end a head: its braces stay open
    cases h
    refine ⟨Position.fits_after ?_, trivial, rfl⟩
    exact Follow.covers_of_follow [.closeCurly] rfl id (by decide)
  · cases h
    exact ⟨Position.fits_settled _, trivial, rfl⟩
  · cases h

/-- The end of a call closes the expression, or only a parenthesis, which is not counted. -/
theorem aligned_shiftCallEnd {call : OpenCall} {complete : Call}
    (h : shiftCallEnd? call complete kind = some next) :
    (next lexeme).Aligned (kind.reshape (.expression :: call.site.opened)) := by
  obtain ⟨site, opening, pending⟩ := call
  unfold shiftCallEnd? at h
  cases pending with
  | nil => exact aligned_shiftCurlyEnd lexeme h
  | cons waiting pending =>
      dsimp only at h
      split at h
      · obtain ⟨add, -, rfl⟩ := Option.map_eq_some_iff.1 h
        exact ⟨Position.fits_after (Follow.expression_covers_call _ _), trivial, rfl⟩
      · cases h

theorem aligned_statement (content : Content) :
    ((Position.content content).after .statement).Aligned [] :=
  ⟨Position.fits_after (Follow.statement_covers content), trivial, rfl⟩

/-- Between statements a token opens an expression, a tag or nothing. -/
theorem aligned_shiftContent {content : Content} (h : shiftContent? content kind = some next) :
    (next lexeme).Aligned (kind.reshape []) := by
  unfold shiftContent? at h
  split at h
  · cases h
    exact aligned_statement _
  · cases h
    exact aligned_statement _
  · cases h
    refine ⟨Position.fits_afterStatement ?_, trivial, rfl⟩
    exact Follow.covers_content _ (by decide) rfl
  · cases h
    exact aligned_openCall lexeme _
  · cases h
    exact aligned_openCall lexeme _
  · cases h
    exact aligned_openCall lexeme _
  · cases h
    exact ⟨Position.fits_settled _, trivial, rfl⟩
  · split at h
    · cases h
      exact aligned_statement _
    · cases h
  · cases h

/-- Within a tag a token can end it, open an expression in it, or keep it open. -/
theorem aligned_shiftTag {tag : OpenTag} (h : shiftTag? tag kind = some next) :
    (next lexeme).Aligned (kind.reshape [.tag]) := by
  unfold shiftTag? at h
  split at h
  · cases h
    exact ⟨Position.fits_settled _, trivial, rfl⟩
  · cases h
    exact ⟨Position.fits_after (Follow.params_covers_tag _), trivial, rfl⟩
  · cases h
    exact ⟨Position.fits_after (Follow.curlyComment_covers_tag _), trivial, rfl⟩
  · cases h
    exact aligned_openCall lexeme _
  · cases h
    exact ⟨Position.fits_settled _, trivial, rfl⟩
  · cases h
    exact aligned_statement _
  · cases h
    exact aligned_statement _
  · cases h

/-- A value can open quotes within the tag. -/
theorem aligned_shiftValue {assignment : Assignment}
    (h : shiftValue? assignment kind = some next) :
    (next lexeme).Aligned (kind.reshape [.tag]) := by
  unfold shiftValue? at h
  split at h
  · cases h
    exact ⟨Position.fits_settled _, trivial, rfl⟩
  · cases h
    exact aligned_openCall lexeme _
  · cases h
    exact aligned_openCall lexeme _
  · cases h
    exact ⟨Position.fits_settled _, trivial, rfl⟩
  · cases h

/-- The closing quote leads back to the tag. -/
theorem aligned_shiftQuoted {quote : OpenQuote} (h : shiftQuoted? quote kind = some next) :
    (next lexeme).Aligned (kind.reshape [.quoted, .tag]) := by
  unfold shiftQuoted? at h
  split at h
  · cases h
    exact ⟨Position.fits_settled _, trivial, rfl⟩
  · cases h
    exact aligned_openCall lexeme _
  · cases h
    exact aligned_openCall lexeme _
  · cases h
    exact ⟨Position.fits_settled _, trivial, rfl⟩
  · cases h

theorem aligned_shiftEnd {chain : Chain} {inverse : Inverse}
    (h : shiftEnd? chain inverse kind = some next) : (next lexeme).Aligned (kind.reshape []) := by
  unfold shiftEnd? at h
  split at h
  · cases h
    exact ⟨Position.fits_settled _, trivial, rfl⟩
  · cases h

/-- Taking a token in changes the open constructs as its kind says. -/
theorem Position.aligned_shift {position : Position} (h : position.shift? kind = some next) :
    (next lexeme).Aligned (kind.reshape position.opened) := by
  cases position with
  | content body => exact aligned_shiftContent lexeme h
  | tag opened => exact aligned_shiftTag lexeme h
  | «attribute» opened name =>
      obtain ⟨rfl, ⟨⟩⟩ := Option.ite_none_right_eq_some.1 h
      exact ⟨Position.fits_settled _, trivial, rfl⟩
  | assigned assignment => exact aligned_shiftValue lexeme h
  | quoted quote => exact aligned_shiftQuoted lexeme h
  | call opened progress => exact aligned_shiftCall lexeme h
  | called opened complete => exact aligned_shiftCallEnd lexeme h
  | params site opening complete names =>
      obtain ⟨rfl, ⟨⟩⟩ := Option.ite_none_right_eq_some.1 h
      exact site.aligned_close _
  | sectionEnd chain =>
      by_cases hkind : kind = .openElse
      · subst hkind
        cases h
        exact ⟨Position.fits_settled _, trivial, rfl⟩
      · rw [Position.shift?, if_neg hkind] at h
        exact aligned_shiftEnd lexeme h
  | elseOpened chain opening =>
      by_cases hkind : kind = .closeCurly
      · subst hkind
        cases h
        exact ⟨Position.fits_settled _, trivial, rfl⟩
      · rw [Position.shift?, if_neg hkind] at h
        exact aligned_shiftExpression lexeme h
  | inverse chain ending => exact aligned_shiftEnd lexeme h
  | endOpened block =>
      obtain ⟨rfl, ⟨⟩⟩ := Option.ite_none_right_eq_some.1 h
      refine ⟨Position.fits_after ?_, trivial, rfl⟩
      exact Follow.covers_of_follow [.closeCurly] rfl id (by decide)
  | endPath block path =>
      obtain ⟨rfl, ⟨⟩⟩ := Option.ite_none_right_eq_some.1 h
      exact aligned_statement _

end Shift

/-! ## Runs -/

theorem reduceChain?_opened {chain : Chain} {inverse : Inverse} {kind : Kind} {next : Position}
    (h : reduceChain? chain inverse kind = some next) : next.opened = [] := by
  unfold reduceChain? at h
  split at h <;> cases h
  rfl

theorem reduceContent?_opened {content : Content} {kind : Kind} {next : Position}
    (h : reduceContent? content kind = some next) : next.opened = [] := by
  unfold reduceContent? at h
  split at h
  · obtain ⟨-, ⟨⟩⟩ := Option.ite_none_right_eq_some.1 h
    rfl
  · obtain ⟨-, ⟨⟩⟩ := Option.ite_none_right_eq_some.1 h
    rfl
  · cases h

/-- Completing a phrase leaves the open constructs as they are. -/
theorem Position.opened_reduce {position next : Position} {kind : Kind}
    (h : position.reduce? kind = some next) : next.opened = position.opened := by
  unfold Position.reduce? at h
  split at h
  · exact reduceContent?_opened h
  · obtain ⟨-, ⟨⟩⟩ := Option.ite_none_right_eq_some.1 h
    rfl
  · obtain ⟨-, h⟩ := Option.ite_none_right_eq_some.1 h
    obtain ⟨complete, -, rfl⟩ := Option.map_eq_some_iff.1 h
    rfl
  · exact reduceChain?_opened h
  · exact reduceChain?_opened h
  · cases h

theorem Config.opened_settle (config : Config) (look : Lookahead) :
    (config.settle look).position.opened = config.position.opened :=
  Config.settle_keeps (fun _ _ _ => Position.opened_reduce) config look

/-- The recogniser and the scanner agree on the open constructs after a token if they
do before it. -/
theorem Config.Aligned.read {config next : Config} {token : Token} {opened : List Construct}
    (hconfig : config.Aligned opened) (h : config.read token = .ok next) :
    next.Aligned (token.kind.reshape opened) := by
  -- phrases are completed first, which opens and closes nothing; the token is taken in then
  obtain ⟨shifted, hshift, rfl⟩ := Config.exists_shift_of_read h
  rw [← hconfig.opened_eq, ← Config.opened_settle config (.token token.kind)]
  exact Position.aligned_shift token.lexeme hshift

/-- At the start nothing is open. -/
theorem Config.aligned_initial : Config.initial.Aligned [] :=
  ⟨Position.fits_settled _, trivial, rfl⟩

/-- A run of the recogniser stays aligned with the open constructs. -/
theorem Config.Aligned.readAll {config final : Config} {tokens : List Token}
    {opened : List Construct} (hconfig : config.Aligned opened)
    (h : config.readAll tokens = .ok final) : final.Aligned (openAfter opened tokens) := by
  induction tokens generalizing config opened with
  | nil =>
      cases h
      exact hconfig
  | cons token rest ih =>
      rw [Config.readAll] at h
      split at h
      · rename_i next hread
        exact ih (hconfig.read hread) h
      · cases h

/-! ## Tokens that are never refused -/

/-- With nothing open, the recogniser waits between statements. -/
theorem Position.exists_content {position : Position} (hwaits : position.Waits)
    (h : position.opened = []) : ∃ content, position = .content content := by
  cases position with
  | content content => exact ⟨content, rfl⟩
  | sectionEnd chain => exact hwaits.elim
  | inverse chain ending => exact hwaits.elim
  | _ => cases h

/-- With quotes innermost, the recogniser waits for a part of a quoted value. -/
theorem Position.exists_quoted {position : Position}
    (h : position.opened.head? = some .quoted) : ∃ quote, position = .quoted quote := by
  cases position with
  | quoted quote => exact ⟨quote, rfl⟩
  | _ => cases h

theorem Config.Fits.read_of_shift {config : Config} {token : Token} {shifted : Lexeme → Config}
    (hfits : config.Fits) (hmem : token.kind ∈ config.position.follow)
    (hreduce : config.position.reduce? token.kind = none)
    (hshift : config.position.shift? token.kind = some shifted) :
    config.read token = .ok (shifted token.lexeme) :=
  (hfits.at.read_eq token hmem).trans (Position.read_of_shift hreduce hshift)

/-- What may hold any character is taken in where it stands. -/
theorem Config.Aligned.exists_read {config : Config} {token : Token} {opened : List Construct}
    (hconfig : config.Aligned opened) (hfills : token.kind.Fills opened) :
    ∃ next, config.read token = .ok next := by
  obtain ⟨hfits, hwaits, rfl⟩ := hconfig
  obtain ⟨position, checks⟩ := config
  obtain ⟨kind, lexeme⟩ := token
  rcases hfills with ⟨rfl, hopened⟩ | ⟨hkind, hopened⟩
  · -- with nothing open the recogniser waits for a statement, and text is one
    obtain ⟨content, rfl⟩ := Position.exists_content hwaits hopened
    have hmem : Kind.text ∈ statementStarts := by decide
    exact ⟨_, hfits.read_of_shift (List.mem_append_left _ hmem)
      (Position.reduce?_content_eq_none content hmem) rfl⟩
  · obtain ⟨quote, rfl⟩ := Position.exists_quoted hopened
    rcases hkind with rfl | rfl
    · exact ⟨_, hfits.read_of_shift (by simp [Position.follow]) rfl rfl⟩
    · exact ⟨_, hfits.read_of_shift (by simp [Position.follow]) rfl rfl⟩

theorem Config.Aligned.not_fills_of_refusal {config : Config} {opened : List Construct}
    {tokens : List Token} {refusal : Refusal} (hconfig : config.Aligned opened)
    (h : config.readAll tokens = .error refusal) :
    ∃ front back, tokens = front ++ refusal.token :: back ∧
      ¬ refusal.token.kind.Fills (openAfter opened front) := by
  induction tokens generalizing config opened with
  | nil => cases h
  | cons token rest ih =>
      rw [Config.readAll] at h
      split at h
      · rename_i next hread
        obtain ⟨front, back, rfl, hfills⟩ := ih (hconfig.read hread) h
        exact ⟨token :: front, back, rfl, hfills⟩
      · -- the refused token comes next: were it a filling one, it would be read
        rename_i expected hread
        cases h
        refine ⟨[], rest, rfl, fun hfills => ?_⟩
        obtain ⟨next, hnext⟩ := hconfig.exists_read hfills
        rw [hread] at hnext
        cases hnext

/-- A token that is refused is not one that may hold any character where it stands. -/
theorem not_fills_of_refusal {tokens : List Token} {refusal : Refusal}
    (h : Config.initial.readAll tokens = .error refusal) :
    ∃ front back, tokens = front ++ refusal.token :: back ∧
      ¬ refusal.token.kind.Fills (openAfter [] front) :=
  Config.aligned_initial.not_fills_of_refusal h

end TemplateUsage.Recogniser
