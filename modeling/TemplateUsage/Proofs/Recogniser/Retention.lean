import TemplateUsage.Recogniser

set_option autoImplicit false

/-!
# The recogniser keeps what it reads

A position holds every token read so far. Main definition: `Position.tokens`, the
tokens a position holds, in the order read. Taking a token in puts it at the end
(`Position.tokens_shift`), completing a phrase changes nothing
(`Position.tokens_reduce`), and so the statements at the end of a run are written
with exactly the tokens that were read (`statementTokens_of_finish`).
-/

namespace TemplateUsage

/-! ## Tokens of phrases -/

theorem Atom.kind_of_ofKind? {kind : Kind} {sort : Atom} (h : Atom.ofKind? kind = some sort) :
    sort.kind = kind := by
  unfold Atom.ofKind? at h
  split at h <;> cases h <;> rfl

namespace Phrase

@[simp] theorem argumentTokens_append (front back : List Expression) :
    argumentTokens (front ++ back) = argumentTokens front ++ argumentTokens back := by
  induction front with
  | nil => rfl
  | cons argument rest ih =>
      rw [List.cons_append, argumentTokens, argumentTokens, ih, List.append_assoc]

@[simp] theorem pairTokens_append (front back : List Pair) :
    pairTokens (front ++ back) = pairTokens front ++ pairTokens back := by
  induction front with
  | nil => rfl
  | cons pair rest ih => rw [List.cons_append, pairTokens, pairTokens, ih, List.append_assoc]

@[simp] theorem statementTokens_append (front back : List Statement) :
    statementTokens (front ++ back) = statementTokens front ++ statementTokens back := by
  induction front with
  | nil => rfl
  | cons statement rest ih =>
      rw [List.cons_append, statementTokens, statementTokens, ih, List.append_assoc]

end Phrase

namespace Recogniser

open Phrase

/-! ## Tokens of a position -/

/-- The kind of the token that opens a section after the given ones. -/
def openingKind : List Section → Kind
  | [] => .openBlock
  | _ :: _ => .openElse

/-- Tokens of sections, latest first. -/
def sectionTokens : List Section → List Token
  | [] => []
  | latest :: before =>
      sectionTokens before ++ latest.head.tokens (openingKind before) ++
        statementTokens latest.program

/-- Tokens that open an enclosure. -/
def Enclosure.tokens : Enclosure → List Token
  | .element tag tagEnd => tag.tokens ++ [⟨.tagEnd, tagEnd⟩]
  | .branch before head => sectionTokens before ++ head.tokens (openingKind before)
  | .otherwise latest before opening closing =>
      sectionTokens (latest :: before) ++ [⟨.openElse, opening⟩, ⟨.closeCurly, closing⟩]

/-- Tokens of levels, innermost first. -/
def levelTokens : List Level → List Token
  | [] => []
  | level :: outer =>
      levelTokens outer ++ statementTokens level.before.reverse ++ level.enclosure.tokens

/-- Tokens up to the latest statement. -/
def Content.tokens (content : Content) : List Token :=
  levelTokens content.levels ++ statementTokens content.statements.reverse

/-- Tokens up to the end of the latest section. -/
def Chain.tokens (chain : Chain) : List Token :=
  chain.outer.tokens ++ sectionTokens (chain.latest :: chain.before)

/-- Tokens up to the latest part of an opening tag. -/
def OpenTag.tokens (tag : OpenTag) : List Token := tag.outer.tokens ++ tag.tag.tokens

/-- Tokens up to the equals sign of an attribute. -/
def Assignment.tokens (assignment : Assignment) : List Token :=
  assignment.tag.tokens ++ [⟨.attributeName, assignment.name⟩, ⟨.equals, assignment.equals⟩]

/-- Tokens up to the latest part of a quoted value. -/
def OpenQuote.tokens (quote : OpenQuote) : List Token :=
  quote.assignment.tokens ++ ⟨.quoteOpen, quote.opening⟩ ::
    quote.parts.reverse.flatMap QuotedPart.tokens

/-- Tokens before a mustache. -/
def MustacheSite.tokens : MustacheSite → List Token
  | .statement content => content.tokens
  | .value assignment => assignment.tokens
  | .quoted quote => quote.tokens

/-- Tokens before a head. -/
def HeadSite.tokens : HeadSite → List Token
  | .block content => content.tokens
  | .chained chain => chain.tokens

/-- The kind of the token that opens a head. -/
def HeadSite.kind : HeadSite → Kind
  | .block _ => .openBlock
  | .chained _ => .openElse

/-- Tokens before a call between curly braces. -/
def Site.tokens : Site → List Token
  | .mustache site _ => site.tokens
  | .head site => site.tokens
  | .modifier tag => tag.tokens

/-- The kind of the token that opens a call between curly braces. -/
def Site.kind : Site → Kind
  | .mustache _ trusting => if trusting then .openTriple else .openCurly
  | .head site => site.kind
  | .modifier _ => .openCurly

/-- Tokens of what has been read of a call. -/
def Progress.tokens : Progress → List Token
  | .start => []
  | .arguments callee args => callee.tokens ++ argumentTokens args.reverse
  | .key callee args named name =>
      callee.tokens ++ argumentTokens args.reverse ++ pairTokens named.reverse ++
        [⟨.hashKey, name⟩]
  | .pairs callee args named =>
      callee.tokens ++ argumentTokens args.reverse ++ pairTokens named.reverse

/-- Tokens of calls that wait for the call they contain, innermost first. -/
def pendingTokens : List Pending → List Token
  | [] => []
  | pending :: outer =>
      pendingTokens outer ++ pending.progress.tokens ++ [⟨.openParen, pending.opening⟩]

/-- Tokens up to the beginning of the innermost call. -/
def OpenCall.tokens (call : OpenCall) : List Token :=
  call.site.tokens ++ ⟨call.site.kind, call.opening⟩ :: pendingTokens call.pending

/-- Tokens up to the opening of a block's closing. -/
def OpenEnd.tokens (block : OpenEnd) : List Token :=
  block.outer.tokens ++ block.head.tokens .openBlock ++ statementTokens block.program ++
    block.inverse.tokens ++ [⟨.openEndBlock, block.opening⟩]

/-- The tokens a position holds, in the order read. -/
def Position.tokens : Position → List Token
  | .content body => body.tokens
  | .tag opened => opened.tokens
  | .attribute opened name => opened.tokens ++ [⟨.attributeName, name⟩]
  | .assigned assignment => assignment.tokens
  | .quoted quote => quote.tokens
  | .call opened progress => opened.tokens ++ progress.tokens
  | .called opened complete => opened.tokens ++ complete.tokens
  | .params site opening complete names =>
      site.tokens ++ ⟨site.kind, opening⟩ :: complete.tokens ++ [⟨.blockParams, names⟩]
  | .sectionEnd chain => chain.tokens
  | .elseOpened chain opening => chain.tokens ++ [⟨.openElse, opening⟩]
  | .inverse chain ending => chain.tokens ++ ending.tokens
  | .endOpened block => block.tokens
  | .endPath block path => block.tokens ++ [⟨.path, path⟩]

/-! ## Adding a phrase -/

@[simp] theorem Content.tokens_add (content : Content) (statement : Statement) :
    (content.add statement).tokens = content.tokens ++ statement.tokens := by
  simp [Content.tokens, Content.add, statementTokens]

@[simp] theorem Content.tokens_enter (content : Content) (enclosure : Enclosure) :
    (content.enter enclosure).tokens = content.tokens ++ enclosure.tokens := by
  simp [Content.tokens, Content.enter, levelTokens, statementTokens]

@[simp] theorem OpenTag.tokens_add (tag : OpenTag) (part : TagPart) :
    (tag.add part).tokens = tag.tokens ++ part.tokens := by
  simp [OpenTag.tokens, OpenTag.add, OpenTag.tag, Tag.tokens]

@[simp] theorem Assignment.tokens_assign (assignment : Assignment) (value : Value) :
    (assignment.assign value).tokens = assignment.tokens ++ value.tokens := by
  simp [Assignment.assign, Assignment.tokens, TagPart.tokens]

@[simp] theorem OpenQuote.tokens_add (quote : OpenQuote) (part : QuotedPart) :
    (quote.add part).tokens = quote.tokens ++ part.tokens := by
  simp [OpenQuote.tokens, OpenQuote.add]

theorem Progress.tokens_add {progress : Progress} {add : Expression → Progress}
    (h : progress.add? = some add) (expression : Expression) :
    (add expression).tokens = progress.tokens ++ expression.tokens := by
  cases progress with
  | start =>
      cases h
      simp [Progress.tokens, argumentTokens]
  | arguments callee args =>
      cases h
      simp [Progress.tokens, argumentTokens]
  | key callee args named name =>
      cases h
      simp [Progress.tokens, pairTokens, Pair.tokens]
  | pairs callee args named => cases h

theorem Progress.tokens_addKey {progress : Progress} {addKey : Lexeme → Progress}
    (h : progress.addKey? = some addKey) (key : Lexeme) :
    (addKey key).tokens = progress.tokens ++ [⟨.hashKey, key⟩] := by
  cases progress with
  | start => cases h
  | arguments callee args =>
      cases h
      simp [Progress.tokens, pairTokens]
  | key callee args named name => cases h
  | pairs callee args named =>
      cases h
      simp [Progress.tokens]

/-- Completing a call gathers the tokens of its callee, arguments and pairs. -/
theorem Progress.tokens_complete {progress : Progress} {call : Call}
    (h : progress.complete? = some call) : call.tokens = progress.tokens := by
  cases progress with
  | start => cases h
  | arguments callee args =>
      cases h
      simp [Progress.tokens, Call.tokens, pairTokens]
  | key callee args named name => cases h
  | pairs callee args named =>
      cases h
      simp [Progress.tokens, Call.tokens]

/-- A complete mustache goes, token by token, where it was opened. -/
theorem MustacheSite.tokens_close (site : MustacheSite) (mustache : Mustache) :
    (site.close mustache).position.tokens = site.tokens ++ mustache.tokens := by
  cases site with
  | statement content =>
      exact content.tokens_add _
  | value assignment => exact assignment.tokens_assign _
  | quoted quote => exact quote.tokens_add _

/-- A complete head goes, token by token, where its block was opened. -/
theorem HeadSite.tokens_close (site : HeadSite) (head : Head) :
    (site.close head).tokens = site.tokens ++ head.tokens site.kind := by
  cases site with
  | block content => exact content.tokens_enter _
  | chained chain =>
      simp [HeadSite.close, Position.tokens, HeadSite.tokens, HeadSite.kind, Enclosure.tokens,
        Chain.tokens, openingKind]

/-! ## Taking a token in -/

section Shift

variable {kind : Kind} {next : Lexeme → Config} (lexeme : Lexeme)

/-- Opening an expression appends its opening braces. -/
theorem tokens_openCall (site : Site) :
    (openCall site lexeme).position.tokens = site.tokens ++ [⟨site.kind, lexeme⟩] := by
  simp [openCall, Position.settled, Position.tokens, OpenCall.tokens, pendingTokens,
    Progress.tokens]

/-- Within an expression, a token is appended to the tokens of the open calls. -/
theorem tokens_shiftExpression {call : OpenCall} {progress : Progress}
    (h : shiftExpression? call progress kind = some next) :
    (next lexeme).position.tokens = call.tokens ++ progress.tokens ++ [⟨kind, lexeme⟩] := by
  unfold shiftExpression? at h
  split at h
  · cases h
  · rename_i add hadd
    split at h
    · -- the call read so far waits for the one that is opened
      cases h
      simp [Position.settled, Position.tokens, OpenCall.tokens, pendingTokens, Progress.tokens]
    · obtain ⟨sort, hsort, rfl⟩ := Option.map_eq_some_iff.1 h
      simp [Position.after, Position.tokens, Progress.tokens_add hadd, Expression.tokens,
        Atom.kind_of_ofKind? hsort]

theorem tokens_shiftCall {call : OpenCall} {progress : Progress}
    (h : shiftCall? call progress kind = some next) :
    (next lexeme).position.tokens = call.tokens ++ progress.tokens ++ [⟨kind, lexeme⟩] := by
  unfold shiftCall? at h
  split at h
  · obtain ⟨addKey, haddKey, rfl⟩ := Option.map_eq_some_iff.1 h
    simp [Position.settled, Position.tokens, Progress.tokens_addKey haddKey]
  · exact tokens_shiftExpression lexeme h

theorem tokens_shiftCurlyEnd {site : Site} {opening : Lexeme} {call : Call}
    (h : shiftCurlyEnd? site opening call kind = some next) :
    (next lexeme).position.tokens =
      site.tokens ++ ⟨site.kind, opening⟩ :: call.tokens ++ [⟨kind, lexeme⟩] := by
  unfold shiftCurlyEnd? at h
  split at h
  · -- a mustache, then a trusting one
    cases h
    simp [MustacheSite.tokens_close, Mustache.tokens, Site.tokens, Site.kind]
  · cases h
    simp [MustacheSite.tokens_close, Mustache.tokens, Site.tokens, Site.kind]
  · -- a head, without block parameters or up to them
    cases h
    simp [Position.settled, HeadSite.tokens_close, Head.tokens, Site.tokens, Site.kind]
  · cases h
    simp [Position.after, Position.tokens, Site.tokens, Site.kind]
  · cases h
    simp [Position.settled, Position.tokens, TagPart.tokens, Site.tokens, Site.kind]
  · cases h

/-- A token that ends a call, a parenthesis or closing braces, comes after the tokens of the
call. -/
theorem tokens_shiftCallEnd {call : OpenCall} {complete : Call}
    (h : shiftCallEnd? call complete kind = some next) :
    (next lexeme).position.tokens = call.tokens ++ complete.tokens ++ [⟨kind, lexeme⟩] := by
  obtain ⟨site, opening, pending⟩ := call
  unfold shiftCallEnd? at h
  cases pending with
  | nil =>
      rw [tokens_shiftCurlyEnd lexeme h]
      simp [OpenCall.tokens, pendingTokens]
  | cons waiting pending =>
      dsimp only at h
      split at h
      · obtain ⟨add, hadd, rfl⟩ := Option.map_eq_some_iff.1 h
        simp [Position.after, Position.tokens, OpenCall.tokens, pendingTokens,
          Progress.tokens_add hadd, Expression.tokens]
      · cases h

/-- Between statements, a token is appended to those of the open levels. -/
theorem tokens_shiftContent {content : Content} (h : shiftContent? content kind = some next) :
    (next lexeme).position.tokens = content.tokens ++ [⟨kind, lexeme⟩] := by
  unfold shiftContent? at h
  split at h
  · -- text and comments are statements of one token
    cases h
    exact content.tokens_add _
  · cases h
    exact content.tokens_add _
  · cases h
    exact content.tokens_add _
  · -- curly braces open a call
    cases h
    exact tokens_openCall lexeme _
  · cases h
    exact tokens_openCall lexeme _
  · cases h
    exact tokens_openCall lexeme _
  · cases h
    simp [Position.settled, Position.tokens, OpenTag.tokens, OpenTag.tag, Tag.tokens]
  · -- an end tag completes the element whose children are read, if that is what is open
    obtain ⟨statements, levels⟩ := content
    split at h
    · rename_i tag tagEnd before outer hlevels
      dsimp only at hlevels
      subst hlevels
      cases h
      simp [Position.after, Position.tokens, Content.tokens, levelTokens, Enclosure.tokens,
        statementTokens, Statement.tokens]
    · cases h
  · cases h

/-- Within a tag, a token is appended to those of its parts. -/
theorem tokens_shiftTag {tag : OpenTag} (h : shiftTag? tag kind = some next) :
    (next lexeme).position.tokens = tag.tokens ++ [⟨kind, lexeme⟩] := by
  unfold shiftTag? at h
  split at h
  · cases h
    rfl
  · cases h
    exact tag.tokens_add _
  · cases h
    exact tag.tokens_add _
  · cases h
    exact tokens_openCall lexeme _
  · cases h
    simp [Position.settled, Position.tokens, Enclosure.tokens, OpenTag.tokens]
  · cases h
    simp [Position.after, Position.tokens, Statement.tokens, OpenTag.tokens]
  · cases h
    simp [Position.after, Position.tokens, Statement.tokens, OpenTag.tokens]
  · cases h

theorem tokens_shiftValue {assignment : Assignment} (h : shiftValue? assignment kind = some next) :
    (next lexeme).position.tokens = assignment.tokens ++ [⟨kind, lexeme⟩] := by
  unfold shiftValue? at h
  split at h
  · cases h
    exact assignment.tokens_assign _
  · cases h
    exact tokens_openCall lexeme _
  · cases h
    exact tokens_openCall lexeme _
  · cases h
    rfl
  · cases h

theorem tokens_shiftQuoted {quote : OpenQuote} (h : shiftQuoted? quote kind = some next) :
    (next lexeme).position.tokens = quote.tokens ++ [⟨kind, lexeme⟩] := by
  unfold shiftQuoted? at h
  split at h
  · cases h
    exact quote.tokens_add _
  · cases h
    exact tokens_openCall lexeme _
  · cases h
    exact tokens_openCall lexeme _
  · cases h
    simp [Position.settled, Position.tokens, Value.tokens, OpenQuote.tokens]
  · cases h

theorem tokens_shiftEnd {chain : Chain} {inverse : Inverse}
    (h : shiftEnd? chain inverse kind = some next) :
    (next lexeme).position.tokens = chain.tokens ++ inverse.tokens ++ [⟨kind, lexeme⟩] := by
  obtain ⟨outer, latest, before⟩ := chain
  unfold shiftEnd? at h
  split at h
  · -- only the first section of a block is closed: the chained ones are completed before
    rename_i hbefore
    dsimp only at hbefore
    subst hbefore
    cases h
    simp [Position.settled, Position.tokens, OpenEnd.tokens, Chain.tokens, sectionTokens,
      openingKind]
  · cases h

/-- A token taken in stands at the end of what the position holds. -/
theorem Position.tokens_shift {position : Position} (h : position.shift? kind = some next) :
    (next lexeme).position.tokens = position.tokens ++ [⟨kind, lexeme⟩] := by
  cases position with
  | content body => exact tokens_shiftContent lexeme h
  | tag opened => exact tokens_shiftTag lexeme h
  | «attribute» opened name =>
      obtain ⟨rfl, ⟨⟩⟩ := Option.ite_none_right_eq_some.1 h
      simp [Position.settled, Position.tokens, Assignment.tokens]
  | assigned assignment => exact tokens_shiftValue lexeme h
  | quoted quote => exact tokens_shiftQuoted lexeme h
  | call opened progress => exact tokens_shiftCall lexeme h
  | called opened complete => exact tokens_shiftCallEnd lexeme h
  | params site opening complete names =>
      obtain ⟨rfl, ⟨⟩⟩ := Option.ite_none_right_eq_some.1 h
      refine (site.tokens_close ⟨opening, complete, some names, lexeme⟩).trans ?_
      simp [Position.tokens, Head.tokens]
  | sectionEnd chain =>
      by_cases hkind : kind = .openElse
      · subst hkind
        cases h
        rfl
      · rw [Position.shift?, if_neg hkind] at h
        simpa [Position.tokens, Inverse.tokens] using tokens_shiftEnd lexeme h
  | elseOpened chain opening =>
      by_cases hkind : kind = .closeCurly
      · subst hkind
        cases h
        simp [Position.settled, Position.tokens, Enclosure.tokens, Chain.tokens]
      · rw [Position.shift?, if_neg hkind] at h
        simpa [Position.tokens, OpenCall.tokens, Site.tokens, Site.kind, HeadSite.tokens,
          HeadSite.kind, pendingTokens, Progress.tokens] using tokens_shiftExpression lexeme h
  | inverse chain ending => exact tokens_shiftEnd lexeme h
  | endOpened block =>
      obtain ⟨rfl, ⟨⟩⟩ := Option.ite_none_right_eq_some.1 h
      rfl
  | endPath block path =>
      obtain ⟨rfl, ⟨⟩⟩ := Option.ite_none_right_eq_some.1 h
      simp [Position.after, Position.tokens, OpenEnd.close, OpenEnd.tokens, Statement.tokens,
        BlockEnd.tokens]

end Shift

/-! ## Completing a phrase -/

/-- Completing a statement moves tokens from one list to another and drops none. -/
theorem tokens_reduceContent {content : Content} {kind : Kind} {next : Position}
    (h : reduceContent? content kind = some next) : next.tokens = content.tokens := by
  obtain ⟨statements, levels⟩ := content
  unfold reduceContent? at h
  split at h
  · -- the program of a section moves from the levels to the chain
    rename_i before head outer rest hlevels
    dsimp only at hlevels
    subst hlevels
    obtain ⟨-, ⟨⟩⟩ := Option.ite_none_right_eq_some.1 h
    simp [Position.tokens, Chain.tokens, Content.tokens, levelTokens, Enclosure.tokens,
      sectionTokens]
  · -- the program of a plain else becomes the inverse
    rename_i latest before opening closing outer rest hlevels
    dsimp only at hlevels
    subst hlevels
    obtain ⟨-, ⟨⟩⟩ := Option.ite_none_right_eq_some.1 h
    simp [Position.tokens, Chain.tokens, Content.tokens, levelTokens, Enclosure.tokens,
      Inverse.tokens]
  · cases h

theorem tokens_reduceChain {chain : Chain} {inverse : Inverse} {kind : Kind} {next : Position}
    (h : reduceChain? chain inverse kind = some next) :
    next.tokens = chain.tokens ++ inverse.tokens := by
  obtain ⟨outer, latest, before⟩ := chain
  unfold reduceChain? at h
  split at h
  · -- the latest section becomes a chained else of the one before it
    rename_i previous earlier hbefore
    dsimp only at hbefore
    subst hbefore
    cases h
    simp [Position.tokens, Chain.tokens, sectionTokens, openingKind, Inverse.tokens]
  · cases h

/-- Completing a phrase changes nothing of what the position holds. -/
theorem Position.tokens_reduce {position next : Position} {kind : Kind}
    (h : position.reduce? kind = some next) : next.tokens = position.tokens := by
  unfold Position.reduce? at h
  split at h
  · exact tokens_reduceContent h
  · obtain ⟨-, ⟨⟩⟩ := Option.ite_none_right_eq_some.1 h
    exact OpenTag.tokens_add _ _
  · obtain ⟨-, hmap⟩ := Option.ite_none_right_eq_some.1 h
    obtain ⟨complete, hcomplete, rfl⟩ := Option.map_eq_some_iff.1 hmap
    rw [Position.tokens, Position.tokens, Progress.tokens_complete hcomplete]
  · simpa [Position.tokens, Inverse.tokens] using tokens_reduceChain h
  · exact tokens_reduceChain h
  · cases h

/-! ## Runs -/

section Keeps

variable {α : Type} {view : Position → α}

theorem Config.reduce_keeps
    (hkeeps : ∀ (position next : Position) (kind : Kind), position.reduce? kind = some next →
      view next = view position)
    {config next : Config} {look : Lookahead} (h : config.reduce? look = some next) :
    view next.position = view config.position := by
  obtain ⟨position, checks⟩ := config
  unfold Config.reduce? at h
  cases checks with
  | cons follow checks =>
      obtain ⟨-, ⟨⟩⟩ := Option.ite_none_right_eq_some.1 h
      rfl
  | nil =>
      cases look with
      | finish => cases h
      | token kind =>
          obtain ⟨reduced, hreduced, rfl⟩ := Option.map_eq_some_iff.1 h
          exact hkeeps position reduced kind hreduced

/-- What completing a phrase keeps of a position is kept by all completions. -/
theorem Config.settle_keeps
    (hkeeps : ∀ (position next : Position) (kind : Kind), position.reduce? kind = some next →
      view next = view position)
    (config : Config) (look : Lookahead) :
    view (config.settle look).position = view config.position := by
  fun_induction Config.settle config look with
  | case1 config next hreduce ih => rw [ih, Config.reduce_keeps hkeeps hreduce]
  | case2 config hreduce => rfl

end Keeps

/-- A token that is read is taken in after all completions. -/
theorem Config.exists_shift_of_read {config next : Config} {token : Token}
    (h : config.read token = .ok next) :
    ∃ shifted, (config.settle (.token token.kind)).position.shift? token.kind = some shifted ∧
      shifted token.lexeme = next := by
  unfold Config.read Config.shift? at h
  dsimp only at h
  split at h
  · rename_i shifted hshift
    cases h
    split at hshift
    · exact ⟨shifted, hshift, rfl⟩
    · cases hshift
  · cases h

/-- Settling before a lookahead completes phrases only, so it keeps the tokens. -/
theorem Config.tokens_settle (config : Config) (look : Lookahead) :
    (config.settle look).position.tokens = config.position.tokens :=
  Config.settle_keeps (fun _ _ _ => Position.tokens_reduce) config look

theorem Config.tokens_read {config next : Config} {token : Token}
    (h : config.read token = .ok next) :
    next.position.tokens = config.position.tokens ++ [token] := by
  obtain ⟨shifted, hshift, rfl⟩ := Config.exists_shift_of_read h
  rw [Position.tokens_shift token.lexeme hshift, Config.tokens_settle]

/-- After a run the position holds the tokens read. -/
theorem Config.tokens_readAll {config final : Config} {tokens : List Token}
    (h : config.readAll tokens = .ok final) :
    final.position.tokens = config.position.tokens ++ tokens := by
  induction tokens generalizing config with
  | nil =>
      cases h
      exact (List.append_nil _).symm
  | cons token rest ih =>
      rw [Config.readAll] at h
      split at h
      · rename_i next hread
        rw [ih h, Config.tokens_read hread, List.append_assoc]
        rfl
      · cases h

theorem Position.tokens_accept {position : Position} {statements : List Statement}
    (h : position.accept? = some statements) : position.tokens = statementTokens statements := by
  unfold Position.accept? at h
  split at h
  · cases h
    rfl
  · cases h

/-- The statements at the end of a run are written with exactly the tokens read. -/
theorem statementTokens_of_finish {tokens : List Token} {final : Config}
    {statements : List Statement} (hread : Config.initial.readAll tokens = .ok final)
    (hfinish : final.finish = .ok statements) : statementTokens statements = tokens := by
  unfold Config.finish Config.accept? at hfinish
  dsimp only at hfinish
  split at hfinish
  · rename_i accepted haccept
    cases hfinish
    split at haccept
    · calc statementTokens statements
          = (final.settle .finish).position.tokens := (Position.tokens_accept haccept).symm
        _ = final.position.tokens := Config.tokens_settle final .finish
        _ = Config.initial.position.tokens ++ tokens := Config.tokens_readAll hread
        _ = tokens := rfl
    · cases haccept
  · cases hfinish

end Recogniser

end TemplateUsage
