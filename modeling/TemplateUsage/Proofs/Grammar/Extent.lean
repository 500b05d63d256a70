import TemplateUsage.Node.Build
import TemplateUsage.Proofs.Grammar.Meaning

set_option autoImplicit false

/-!
# The span of a phrase is that of its tokens

A node is located by the span of its phrase, which is put together from the phrase's
own lexemes. It is the span from the first to the last token of the phrase, for
every phrase. Main statements: `Statement.tokensSpan?_tokens`,
`tokensSpan?_statementTokens` for lists of statements, and
`Inverse.tokensSpan?_tokens` for what follows a section.
-/

namespace TemplateUsage

namespace Grammar

/-- The first token starts at the point. -/
def StartsAt (tokens : List Token) (point : Point) : Prop :=
  ∃ token, tokens.head? = some token ∧ token.lexeme.span.start = point

/-- The last token stops at the point. -/
def StopsAt (tokens : List Token) (point : Point) : Prop :=
  ∃ token, tokens.getLast? = some token ∧ token.lexeme.span.stop = point

section

variable {front back : List Token} {point : Point}

theorem StartsAt.cons (token : Token) (rest : List Token) :
    StartsAt (token :: rest) token.lexeme.span.start :=
  ⟨token, rfl, rfl⟩

theorem StartsAt.append (h : StartsAt front point) (back : List Token) :
    StartsAt (front ++ back) point := by
  obtain ⟨token, hhead, hpoint⟩ := h
  refine ⟨token, ?_, hpoint⟩
  rw [List.head?_append, hhead, Option.some_or]

theorem StopsAt.singleton (token : Token) : StopsAt [token] token.lexeme.span.stop :=
  ⟨token, rfl, rfl⟩

theorem StopsAt.append (front : List Token) (h : StopsAt back point) :
    StopsAt (front ++ back) point := by
  obtain ⟨token, hlast, hpoint⟩ := h
  refine ⟨token, ?_, hpoint⟩
  rw [List.getLast?_append, hlast, Option.some_or]

theorem StopsAt.cons (token : Token) (h : StopsAt back point) : StopsAt (token :: back) point :=
  StopsAt.append [token] h

/-- The tokens of phrases stop with the last phrase. -/
theorem StopsAt.flatMap {α : Type} {tokens : α → List Token} {span : α → Span}
    (hstops : ∀ phrase, StopsAt (tokens phrase) (span phrase).stop) {phrases : List α} {last : α}
    (hlast : phrases.getLast? = some last) :
    StopsAt (phrases.flatMap tokens) (span last).stop := by
  obtain ⟨front, rfl⟩ := List.getLast?_eq_some_iff.1 hlast
  rw [List.flatMap_append, List.flatMap_singleton]
  exact StopsAt.append _ (hstops last)

/-- Tokens that start and stop where a span does have that span. -/
theorem tokensSpan?_eq {tokens : List Token} {span : Span} (hstart : StartsAt tokens span.start)
    (hstop : StopsAt tokens span.stop) : tokensSpan? tokens = some span := by
  obtain ⟨first, hfirst, hstart⟩ := hstart
  obtain ⟨last, hlast, hstop⟩ := hstop
  rw [tokensSpan?, Phrase.listSpan?, hfirst, hlast]
  show some (Span.mk first.lexeme.span.start last.lexeme.span.stop) = some span
  rw [hstart, hstop]

/-- The span of the tokens of phrases is that of the phrases. -/
theorem tokensSpan?_flatMap {α : Type} {tokens : α → List Token} {span : α → Span}
    (hstarts : ∀ phrase, StartsAt (tokens phrase) (span phrase).start)
    (hstops : ∀ phrase, StopsAt (tokens phrase) (span phrase).stop) (phrases : List α) :
    tokensSpan? (phrases.flatMap tokens) = Phrase.listSpan? span phrases := by
  cases phrases with
  | nil => rfl
  | cons first rest =>
      have hlast := List.getLast?_eq_some_getLast (List.cons_ne_nil first rest)
      rw [Phrase.listSpan?, List.head?_cons, hlast]
      refine tokensSpan?_eq ?_ (StopsAt.flatMap hstops hlast)
      rw [List.flatMap_cons]
      exact StartsAt.append (hstarts first) _

end

end Grammar

namespace Phrase

open Grammar

/-! ## Phrases -/

/-- The span of an expression starts at its first token. -/
theorem Expression.startsAt_tokens (expression : Expression) :
    StartsAt expression.tokens expression.span.start := by
  cases expression with
  | atom sort lexeme =>
      rw [Expression.tokens]
      exact StartsAt.cons _ _
  | nested opening call closing =>
      rw [Expression.tokens]
      exact StartsAt.cons _ _

/-- The span of an expression stops at its last token. -/
theorem Expression.stopsAt_tokens (expression : Expression) :
    StopsAt expression.tokens expression.span.stop := by
  cases expression with
  | atom sort lexeme =>
      rw [Expression.tokens]
      exact StopsAt.singleton _
  | nested opening call closing =>
      rw [Expression.tokens]
      exact StopsAt.append _ (StopsAt.singleton _)

theorem Expression.tokensSpan?_tokens (expression : Expression) :
    tokensSpan? expression.tokens = some expression.span :=
  tokensSpan?_eq expression.startsAt_tokens expression.stopsAt_tokens

theorem Pair.startsAt_tokens (pair : Pair) : StartsAt pair.tokens pair.span.start := by
  cases pair with
  | mk key value =>
      rw [Pair.tokens]
      exact StartsAt.cons _ _

theorem Pair.stopsAt_tokens (pair : Pair) : StopsAt pair.tokens pair.span.stop := by
  cases pair with
  | mk key value =>
      rw [Pair.tokens]
      exact StopsAt.cons _ value.stopsAt_tokens

theorem Pair.tokensSpan?_tokens (pair : Pair) : tokensSpan? pair.tokens = some pair.span :=
  tokensSpan?_eq pair.startsAt_tokens pair.stopsAt_tokens

theorem pairTokens_eq_flatMap (pairs : List Pair) :
    pairTokens pairs = pairs.flatMap Pair.tokens := by
  induction pairs with
  | nil => rw [pairTokens, List.flatMap_nil]
  | cons pair rest ih => rw [pairTokens, List.flatMap_cons, ih]

/-- The span of pairs is that of their tokens. -/
theorem tokensSpan?_pairTokens (pairs : List Pair) :
    tokensSpan? (pairTokens pairs) = listSpan? Pair.span pairs := by
  rw [pairTokens_eq_flatMap]
  exact tokensSpan?_flatMap Pair.startsAt_tokens Pair.stopsAt_tokens pairs

theorem Mustache.startsAt_tokens (mustache : Mustache) :
    StartsAt mustache.tokens mustache.span.start :=
  StartsAt.cons _ _

theorem Mustache.stopsAt_tokens (mustache : Mustache) :
    StopsAt mustache.tokens mustache.span.stop :=
  StopsAt.append _ (StopsAt.singleton _)

theorem Mustache.tokensSpan?_tokens (mustache : Mustache) :
    tokensSpan? mustache.tokens = some mustache.span :=
  tokensSpan?_eq mustache.startsAt_tokens mustache.stopsAt_tokens

/-- The span of a value starts at its quote, its braces or its text. -/
theorem Value.startsAt_tokens (value : Value) : StartsAt value.tokens value.span.start := by
  cases value with
  | text lexeme => exact StartsAt.cons _ _
  | mustache curly => exact curly.startsAt_tokens
  | quoted opening parts closing => exact StartsAt.cons _ _

theorem Value.stopsAt_tokens (value : Value) : StopsAt value.tokens value.span.stop := by
  cases value with
  | text lexeme => exact StopsAt.singleton _
  | mustache curly => exact curly.stopsAt_tokens
  | quoted opening parts closing => exact StopsAt.append _ (StopsAt.singleton _)

theorem Value.tokensSpan?_tokens (value : Value) : tokensSpan? value.tokens = some value.span :=
  tokensSpan?_eq value.startsAt_tokens value.stopsAt_tokens

/-- Every sort of statement starts at its first token. -/
theorem Statement.startsAt_tokens (statement : Statement) :
    StartsAt statement.tokens statement.span.start := by
  cases statement with
  | text | htmlComment | curlyComment =>
      rw [Statement.tokens]
      exact StartsAt.cons _ _
  | mustache curly =>
      rw [Statement.tokens]
      exact curly.startsAt_tokens
  | block head program inverse close =>
      rw [Statement.tokens]
      exact StartsAt.append (StartsAt.append (StartsAt.append (StartsAt.cons _ _) _) _) _
  | element tag tagEnd body endTag =>
      rw [Statement.tokens]
      exact StartsAt.append (StartsAt.append (StartsAt.cons _ _) _) _
  | selfClosing tag tagEnd | void tag tagEnd =>
      rw [Statement.tokens]
      exact StartsAt.append (StartsAt.cons _ _) _

/-- Every sort of statement stops at its last token: a block at its closing braces, an element
at its end tag. -/
theorem Statement.stopsAt_tokens (statement : Statement) :
    StopsAt statement.tokens statement.span.stop := by
  cases statement with
  | text | htmlComment | curlyComment =>
      rw [Statement.tokens]
      exact StopsAt.singleton _
  | mustache curly =>
      rw [Statement.tokens]
      exact curly.stopsAt_tokens
  | block head program inverse close =>
      rw [Statement.tokens]
      exact StopsAt.append _ (StopsAt.cons _ (StopsAt.cons _ (StopsAt.singleton _)))
  | element tag tagEnd body endTag =>
      rw [Statement.tokens]
      exact StopsAt.append _ (StopsAt.singleton _)
  | selfClosing tag tagEnd | void tag tagEnd =>
      rw [Statement.tokens]
      exact StopsAt.append _ (StopsAt.singleton _)

theorem Statement.tokensSpan?_tokens (statement : Statement) :
    tokensSpan? statement.tokens = some statement.span :=
  tokensSpan?_eq statement.startsAt_tokens statement.stopsAt_tokens

/-! ## Lists of statements -/

theorem statementTokens_eq_flatMap (statements : List Statement) :
    statementTokens statements = statements.flatMap Statement.tokens := by
  induction statements with
  | nil => rw [statementTokens, List.flatMap_nil]
  | cons statement rest ih => rw [statementTokens, List.flatMap_cons, ih]

theorem stopsAt_statementTokens {statements : List Statement} {last : Statement}
    (h : statements.getLast? = some last) :
    StopsAt (statementTokens statements) last.span.stop := by
  rw [statementTokens_eq_flatMap]
  exact StopsAt.flatMap Statement.stopsAt_tokens h

/-- The span of a list of statements is that of its tokens. -/
theorem tokensSpan?_statementTokens (statements : List Statement) :
    tokensSpan? (statementTokens statements) = listSpan? Statement.span statements := by
  rw [statementTokens_eq_flatMap]
  exact tokensSpan?_flatMap Statement.startsAt_tokens Statement.stopsAt_tokens statements

/-! ## Inverses -/

/-- A program after a closing token stops with its last statement, or with that token. -/
theorem stopsAt_program (closing : Token) (program : List Statement) :
    StopsAt (closing :: statementTokens program)
      ((program.getLast?.map Statement.span).getD closing.lexeme.span).stop := by
  cases h : program.getLast? with
  | none =>
      obtain rfl := List.getLast?_eq_none_iff.1 h
      rw [statementTokens]
      exact StopsAt.singleton closing
  | some last => exact StopsAt.cons closing (stopsAt_statementTokens h)

theorem Head.startsAt_tokens (kind : Kind) (head : Head) :
    StartsAt (head.tokens kind) head.opening.span.start :=
  StartsAt.append (StartsAt.append (StartsAt.cons _ _) _) _

/-- A head with its program stops with the last statement, or with the head's closing. -/
theorem Head.stopsAt_tokens (kind : Kind) (head : Head) (program : List Statement) :
    StopsAt (head.tokens kind ++ statementTokens program)
      ((program.getLast?.map Statement.span).getD head.closing.span).stop := by
  rw [Head.tokens, List.append_assoc]
  exact StopsAt.append _ (stopsAt_program ⟨.closeCurly, head.closing⟩ program)

/-- An inverse that has no last span is not written. -/
theorem Inverse.tokens_of_lastSpan?_eq_none {inverse : Inverse} (h : inverse.lastSpan? = none) :
    inverse.tokens = [] := by
  cases inverse with
  | absent => rw [Inverse.tokens]
  | otherwise opening closing program => cases h
  | chained head program ending => cases h

/-- The last token of an inverse stops where the last span of the inverse does. -/
theorem Inverse.stopsAt_tokens (inverse : Inverse) {span : Span}
    (h : inverse.lastSpan? = some span) : StopsAt inverse.tokens span.stop := by
  cases inverse with
  | absent => cases h
  | otherwise opening closing program =>
      cases h
      rw [Inverse.tokens]
      exact StopsAt.cons _ (stopsAt_program ⟨.closeCurly, closing⟩ program)
  | chained head program ending =>
      rw [Inverse.lastSpan?, Option.some.injEq] at h
      subst h
      rw [Inverse.tokens]
      -- without a further else the chain stops with its own program
      cases hending : ending.lastSpan? with
      | some last => exact StopsAt.append _ (Inverse.stopsAt_tokens ending hending)
      | none =>
          rw [Inverse.tokens_of_lastSpan?_eq_none hending, List.append_nil]
          exact head.stopsAt_tokens .openElse program
termination_by structural inverse

/-- The span of an inverse from its opening is that of its tokens. -/
theorem Inverse.tokensSpan?_tokens {inverse : Inverse} {opening : Lexeme} {span : Span}
    (hstart : StartsAt inverse.tokens opening.span.start) (hlast : inverse.lastSpan? = some span) :
    tokensSpan? inverse.tokens = some (inverse.spanFrom opening) := by
  refine tokensSpan?_eq hstart ?_
  rw [Inverse.spanFrom, hlast]
  show StopsAt inverse.tokens span.stop
  exact Inverse.stopsAt_tokens inverse hlast

end Phrase

end TemplateUsage
