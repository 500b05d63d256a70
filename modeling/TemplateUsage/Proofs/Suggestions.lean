import TemplateUsage.Proofs.Diagnosis
import TemplateUsage.Proofs.Earliest
import TemplateUsage.Proofs.Recogniser.Expectation
import TemplateUsage.Proofs.Scope

set_option autoImplicit false

/-!
# The help of an unexpected token

An unexpected token, or end, comes with the names of what was expected in its place. Not all
that is named can stand there: what the recogniser expects may belong after the phrase it
has just read where that phrase stands elsewhere. Main statement:
`help_names_continuations`, a name in the help is one the grammar has next exactly when the
recogniser does not misname it, and there is always such a name.
-/

namespace TemplateUsage

open Grammar

/-- The fault is that of a token, or of the end of the text, that is not expected where it
stands. -/
def Fault.Unexpected : Fault → Prop
  | .unexpectedToken _ _ | .unexpectedEnd _ => True
  | _ => False

theorem Fault.Unexpected.not_lexical {fault : Fault} (h : fault.Unexpected) :
    ¬ fault.Lexical := by
  cases fault with
  | unexpectedToken kind expected => exact id
  | unexpectedEnd expected => exact id
  | _ => exact h.elim

theorem Fault.Unexpected.not_isMismatch {fault : Fault} (h : fault.Unexpected) :
    ¬ fault.IsMismatch := by
  cases fault with
  | unexpectedToken kind expected => exact id
  | unexpectedEnd expected => exact id
  | _ => exact h.elim

/-! ## Names -/

/-- Only the two plain ends of a tag share a name. -/
theorem Lookahead.eq_of_description {look other : Lookahead}
    (h : look.description = other.description) :
    look = other ∨ look ∈ [token .tagEnd, token .voidTagEnd] ∧
      other ∈ [token .tagEnd, token .voidTagEnd] := by
  have hall : ∀ look ∈ Lookahead.all, ∀ other ∈ Lookahead.all,
      look.description = other.description → look = other ∨
        look ∈ [token .tagEnd, token .voidTagEnd] ∧
          other ∈ [token .tagEnd, token .voidTagEnd] := by decide
  exact hall look look.mem_all other other.mem_all h

namespace Recogniser

/-- The configuration misnames either both of two things with one name or none. -/
theorem Config.Misnames.of_description {config : Config} {look other : Lookahead}
    (h : config.Misnames look) (hname : look.description = other.description) :
    config.Misnames other := by
  rcases Lookahead.eq_of_description hname with rfl | ⟨hlook, hother⟩
  · exact h
  have hends : ∀ look ∈ [Lookahead.token .tagEnd, .token .voidTagEnd],
      ∃ kind ∈ tagPartStarts ++ tagEnds, kind ∉ callEnds ++ [.openElse] ∧ look = .token kind := by
    decide
  obtain ⟨kind, hkind, hnot, rfl⟩ := hends look hlook
  cases h with
  | tagParams => exact absurd (by decide) hnot
  | headParams =>
      obtain ⟨same, hsame, -, rfl⟩ := hends other hother
      exact .headParams hsame
  | tagPart hcheck hpart => exact absurd rfl (hpart kind hkind)
  | pairs hcall => exact absurd (List.mem_append_left _ hcall) hnot
  | otherwise => exact absurd (by decide) hnot

/-- What a refused token leaves expected is what is expected once phrases are completed. -/
theorem Config.expected_of_read {config : Config} {token : Token} {expected : List Lookahead}
    (h : config.read token = .error expected) :
    (config.settle (.token token.kind)).expected = expected := by
  rw [read] at h
  split at h
  · cases h
  · exact Except.error.inj h

theorem Config.expected_of_finish {config : Config} {expected : List Lookahead}
    (h : config.finish = .error expected) : (config.settle .finish).expected = expected := by
  rw [finish] at h
  split at h
  · cases h
  · exact Except.error.inj h

end Recogniser

namespace Template

open Recogniser

/-- The tokens before the one that is reported as unexpected; where the end of the text is,
these are all its tokens. -/
inductive ReportedAfter (source : String) (front : List Token) : Rejection → Prop where
  | token {token : Token} {back : List Token} {expected : List Lookahead} :
      (Scan.ofText source).tokens = front ++ token :: back →
      ReportedAfter source front ⟨.unexpectedToken token.kind expected, token.lexeme.span⟩
  | finish {expected : List Lookahead} :
      (Scan.ofText source).tokens = front →
      ReportedAfter source front ⟨.unexpectedEnd expected, endSpan source front⟩

/-- Where a text stops being taken in, of all that is expected just what is misnamed cannot
come next. -/
theorem Stops.exists_suggests {source : String} {rejection : Rejection}
    (h : Stops source rejection) (hfault : rejection.fault.Unexpected) :
    ∃ front config expected, ReportedAfter source front rejection ∧
      Config.initial.readAll front = .ok config ∧
        rejection.fault.help = expectedHelp expected ∧ config.Suggests expected := by
  cases h with
  | @refused front back token expected htokens hrefuses =>
      obtain ⟨config, hfront, hread⟩ := hrefuses
      refine ⟨front, config, expected, .token htokens, hfront, rfl, ?_⟩
      rw [← Config.expected_of_read hread]
      refine suggests_of_readAll hfront (Scan.kind_mem_kindsIn htokens) fun hadmits => ?_
      have hready := Config.ready_initial.readAll hfront
      obtain ⟨next, hnext⟩ := (Config.exists_read_iff hready token).2 hadmits
      rw [hread] at hnext
      cases hnext
  | scanned hread hrejection =>
      exact absurd (Scan.visible_of_rejection hrejection).1 hfault.not_lexical
  | @ended config expected hscan hread hfinish =>
      refine ⟨_, config, expected, .finish rfl, hread, rfl, ?_⟩
      rw [← Config.expected_of_finish hfinish]
      refine suggests_of_readAll hread (Scan.openAfter_ofText hscan) fun hadmits => ?_
      have hready := Config.ready_initial.readAll hread
      obtain ⟨statements, hstatements⟩ := (Config.exists_finish_iff_admits hready).2 hadmits
      rw [hfinish] at hstatements
      cases hstatements

theorem expectedHelp_eq_some {expected : List Lookahead} (h : expected ≠ []) :
    expectedHelp expected = some ("expected one of: " ++
      String.intercalate ", " (Text.sortedDistinct (expected.map Lookahead.description))) := by
  unfold expectedHelp
  split
  · rename_i hnames
    obtain ⟨look, hlook⟩ := List.exists_mem_of_ne_nil _ h
    have hname := Text.mem_sortedDistinct.2 (List.mem_map_of_mem (f := Lookahead.description) hlook)
    rw [hnames] at hname
    cases hname
  · rfl

/-- The help of an unexpected token, or of an unexpected end, names what was expected after
the tokens before it. A name is that of something a sentence of the grammar has next after
these tokens exactly when it is not that of something misnamed where the recogniser stands
after them, and at least one name is. -/
theorem help_names_continuations {file source : String} {rejection : Rejection}
    (h : Rejects file source rejection) (hfault : rejection.fault.Unexpected) :
    ∃ front config names, ReportedAfter source front rejection ∧
      Config.initial.readAll front = .ok config ∧
      (SyntaxError.ofRejection file source rejection).diagnostic.help =
        some ("expected one of: " ++ String.intercalate ", " names) ∧
      (∀ name ∈ names,
        (∃ look, look.description = name ∧ Continues (front.map Token.kind) look) ↔
          ¬ ∃ look, look.description = name ∧ config.Misnames look) ∧
      ∃ name ∈ names, ∃ look, look.description = name ∧
        Continues (front.map Token.kind) look := by
  have hstops := (stops_of_rejects h).resolve_right hfault.not_isMismatch
  obtain ⟨front, config, expected, hafter, hfront, hhelp, hsuggests⟩ :=
    hstops.exists_suggests hfault
  obtain ⟨named, hnamed, hadmits⟩ := hsuggests.exists_admits
  refine ⟨front, config, Text.sortedDistinct (expected.map Lookahead.description), hafter, hfront,
    hhelp.trans (expectedHelp_eq_some (List.ne_nil_of_mem hnamed)), ?_, named.description,
    Text.mem_sortedDistinct.2 (List.mem_map_of_mem hnamed), named, rfl,
    (continues_iff hfront named).2 hadmits⟩
  intro name hname
  obtain ⟨look, hlook, rfl⟩ := List.mem_map.1 (Text.mem_sortedDistinct.1 hname)
  constructor
  · -- what continues and what is misnamed may differ, but share the name and so the misnaming
    rintro ⟨next, hnext, hcontinues⟩ ⟨other, hother, hmisnames⟩
    exact (hmisnames.of_description (hother.trans hnext.symm)).not_admits
      ((continues_iff hfront next).1 hcontinues)
  · intro hnot
    have hadmits := (hsuggests.admits_iff look hlook).2 fun hmisnames =>
      hnot ⟨look, rfl, hmisnames⟩
    exact ⟨look, rfl, (continues_iff hfront look).2 hadmits⟩

/-- An argument after a pair. -/
def strayArgument : String := "\x7b\x7bf a=b c\x7d\x7d"

/-- The rejection of the argument: it is refused after the pair, where the recogniser would also
act on all that ends a call. -/
def strayArgumentRejection : Rejection :=
  ⟨.unexpectedToken .path [.token .hashKey, .token .blockParams, .token .closeCurly,
    .token .closeTriple, .token .closeParen], ⟨⟨8, 1, 9⟩, ⟨9, 1, 10⟩⟩⟩

theorem rejects_strayArgument : Rejects "page" strayArgument strayArgumentRejection := by
  have hfound : syntaxError? "page" strayArgument =
      some (.ofRejection "page" strayArgument strayArgumentRejection) := by decide +kernel
  exact parse_of_syntaxError? hfound

/-- What is said of the names holds of those in the help of the stray argument. -/
theorem help_names_continuations_strayArgument :
    Rejects "page" strayArgument strayArgumentRejection ∧
      strayArgumentRejection.fault.Unexpected ∧
      ∃ front config names, ReportedAfter strayArgument front strayArgumentRejection ∧
        Config.initial.readAll front = .ok config ∧
        (SyntaxError.ofRejection "page" strayArgument strayArgumentRejection).diagnostic.help =
          some ("expected one of: " ++ String.intercalate ", " names) ∧
        (∀ name ∈ names,
          (∃ look, look.description = name ∧ Continues (front.map Token.kind) look) ↔
            ¬ ∃ look, look.description = name ∧ config.Misnames look) ∧
        ∃ name ∈ names, ∃ look, look.description = name ∧
          Continues (front.map Token.kind) look :=
  ⟨rejects_strayArgument, trivial, help_names_continuations rejects_strayArgument trivial⟩

/-- The help names a closing parenthesis, and none is open. -/
theorem help_misnames_strayArgument :
    Rejects "page" strayArgument strayArgumentRejection ∧
      (SyntaxError.ofRejection "page" strayArgument strayArgumentRejection).diagnostic.help =
        some "expected one of: `)`, `\x7d\x7d`, `\x7d\x7d\x7d`, block parameters, hash argument" ∧
      ∃ front, ReportedAfter strayArgument front strayArgumentRejection ∧
        ∀ look, look.description = "`)`" → ¬ Continues (front.map Token.kind) look := by
  let front := (Scan.ofText strayArgument).tokens.take 4
  let paren : Token := ⟨.closeParen, default⟩
  have htokens : (Scan.ofText strayArgument).tokens =
      front ++ ⟨.path, ⟨"c", ⟨⟨8, 1, 9⟩, ⟨9, 1, 10⟩⟩⟩⟩ ::
        (Scan.ofText strayArgument).tokens.drop 5 := by decide +kernel
  have hname : ∀ look ∈ Lookahead.all, look.description = "`)`" → look = .token .closeParen := by
    decide +kernel
  have hparen : (Config.initial.readAll (front ++ [paren])).isOk = false := by decide +kernel
  refine ⟨rejects_strayArgument, by decide +kernel, front, .token htokens, ?_⟩
  intro look hlook hcontinues
  cases hname look look.mem_all hlook
  have hkinds : (front ++ [paren]).map Token.kind = front.map Token.kind ++ [.closeParen] :=
    List.map_append
  rw [Continues, ← hkinds, ← exists_readAll_iff_viable] at hcontinues
  obtain ⟨config, hconfig⟩ := hcontinues
  rw [hconfig] at hparen
  cases hparen

end Template

end TemplateUsage
