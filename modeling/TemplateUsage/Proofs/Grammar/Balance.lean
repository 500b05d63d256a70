import TemplateUsage.Phrase
import TemplateUsage.Proofs.Scan.Layout

set_option autoImplicit false

/-!
# Phrases are balanced

After a phrase the same constructs are open as before it: each token of the phrase
that enters a construct has one that leaves it. So between two statements no more is
open than around them. Main statements: `Statement.openAfter_tokens` and
`openAfter_statementTokens`.
-/

namespace TemplateUsage

/-- Tokens of this kind stand inside an opening tag: they neither start one nor leave an
element open. -/
structure Kind.Inner (kind : Kind) : Prop where
  ne_startTag : kind ≠ .startTag
  ne_tagEnd : kind ≠ .tagEnd

namespace Phrase

open Scan

/-! ## Calls

No token of a call enters a construct or leaves one. -/

/-- Tokens that each keep the open constructs keep them together. -/
theorem openAfter_of_keeps {tokens : List Token} (h : ∀ token ∈ tokens, token.kind.Keeps)
    (opened : List Construct) : openAfter opened tokens = opened := by
  induction tokens with
  | nil => rfl
  | cons token rest ih =>
      obtain ⟨hfirst, hrest⟩ := List.forall_mem_cons.1 h
      rw [openAfter_cons, hfirst opened, ih hrest]

theorem Atom.keeps (sort : Atom) : sort.kind.Keeps := by
  cases sort <;> exact fun _ => rfl

mutual

/-- No token of an expression opens or closes a construct: the parentheses in it are not
counted. -/
theorem Expression.keeps_of_mem (expression : Expression) :
    ∀ token ∈ expression.tokens, token.kind.Keeps := by
  cases expression with
  | atom sort lexeme =>
      rw [Expression.tokens, List.forall_mem_singleton]
      exact Atom.keeps sort
  | nested opening call closing =>
      rw [Expression.tokens, List.forall_mem_append, List.forall_mem_cons,
        List.forall_mem_singleton]
      exact ⟨⟨fun _ => rfl, Call.keeps_of_mem call⟩, fun _ => rfl⟩
termination_by structural expression

/-- The same of the tokens of a call. -/
theorem Call.keeps_of_mem (call : Call) : ∀ token ∈ call.tokens, token.kind.Keeps := by
  cases call with
  | mk callee arguments pairs =>
      rw [Call.tokens, List.forall_mem_append, List.forall_mem_append]
      exact ⟨⟨Expression.keeps_of_mem callee, keeps_of_mem_argumentTokens arguments⟩,
        keeps_of_mem_pairTokens pairs⟩
termination_by structural call

theorem keeps_of_mem_argumentTokens (arguments : List Expression) :
    ∀ token ∈ argumentTokens arguments, token.kind.Keeps := by
  cases arguments with
  | nil => nofun
  | cons argument rest =>
      rw [argumentTokens, List.forall_mem_append]
      exact ⟨Expression.keeps_of_mem argument, keeps_of_mem_argumentTokens rest⟩
termination_by structural arguments

theorem Pair.keeps_of_mem (pair : Pair) : ∀ token ∈ pair.tokens, token.kind.Keeps := by
  cases pair with
  | mk key value =>
      rw [Pair.tokens, List.forall_mem_cons]
      exact ⟨fun _ => rfl, Expression.keeps_of_mem value⟩
termination_by structural pair

theorem keeps_of_mem_pairTokens (pairs : List Pair) :
    ∀ token ∈ pairTokens pairs, token.kind.Keeps := by
  cases pairs with
  | nil => nofun
  | cons pair rest =>
      rw [pairTokens, List.forall_mem_append]
      exact ⟨Pair.keeps_of_mem pair, keeps_of_mem_pairTokens rest⟩
termination_by structural pairs

end

@[simp] theorem Call.openAfter_tokens (opened : List Construct) (call : Call) :
    openAfter opened call.tokens = opened :=
  openAfter_of_keeps call.keeps_of_mem opened

/-- The tokens of a call are such as stand within an expression. -/
theorem Call.inner_of_mem (call : Call) : ∀ token ∈ call.tokens, token.kind.Inner := by
  intro token hmem
  have hkeeps := call.keeps_of_mem token hmem [.tag]
  constructor
  · intro hkind
    rw [hkind] at hkeeps
    cases hkeeps
  · intro hkind
    rw [hkind] at hkeeps
    cases hkeeps

theorem Call.kind_ne_closeCurly (call : Call) :
    ∀ token ∈ call.tokens, token.kind ≠ .closeCurly := by
  intro token hmem hkind
  have hkeeps := call.keeps_of_mem token hmem [.tag]
  rw [hkind] at hkeeps
  cases hkeeps

/-! ## Tags -/

@[simp] theorem Mustache.openAfter_tokens (opened : List Construct) (mustache : Mustache) :
    openAfter opened mustache.tokens = opened := by
  obtain ⟨trusting, opening, call, closing⟩ := mustache
  cases trusting <;>
    simp [Mustache.tokens, Kind.reshape]

/-- If each phrase leaves the open constructs as they were, so does a list of phrases. -/
theorem openAfter_flatMap {α : Type} {tokens : α → List Token}
    (h : ∀ opened phrase, openAfter opened (tokens phrase) = opened) (opened : List Construct)
    (phrases : List α) : openAfter opened (phrases.flatMap tokens) = opened := by
  induction phrases with
  | nil => rfl
  | cons phrase rest ih => rw [List.flatMap_cons, openAfter_append, h, ih]

theorem QuotedPart.openAfter_tokens (opened : List Construct) (part : QuotedPart) :
    openAfter opened part.tokens = opened := by
  cases part with
  | text lexeme => rfl
  | mustache curly => exact curly.openAfter_tokens opened

/-- A quoted value closes the quotes it opens. -/
theorem Value.openAfter_tokens (opened : List Construct) (value : Value) :
    openAfter opened value.tokens = opened := by
  cases value with
  | text lexeme => rfl
  | mustache curly => exact curly.openAfter_tokens opened
  | quoted opening parts closing =>
      rw [Value.tokens, List.cons_append, openAfter_cons, openAfter_append,
        openAfter_flatMap QuotedPart.openAfter_tokens]
      rfl

/-- A part of a tag leaves the tag open and opens nothing else. -/
theorem TagPart.openAfter_tokens (opened : List Construct) (part : TagPart) :
    openAfter opened part.tokens = opened := by
  cases part with
  | flag name => rfl
  | «attribute» name equals value => exact value.openAfter_tokens opened
  | modifier opening call closing =>
      rw [TagPart.tokens, List.cons_append, openAfter_cons, openAfter_append,
        Call.openAfter_tokens]
      rfl
  | params lexeme => rfl
  | comment lexeme => rfl

/-- An opening tag without its end leaves the tag open. -/
theorem Tag.openAfter_tokens (opened : List Construct) (tag : Tag) :
    openAfter opened tag.tokens = .tag :: opened := by
  rw [Tag.tokens, openAfter_cons, openAfter_flatMap TagPart.openAfter_tokens]
  rfl

theorem Mustache.inner_of_mem (mustache : Mustache) :
    ∀ token ∈ mustache.tokens, token.kind.Inner := by
  obtain ⟨trusting, opening, call, closing⟩ := mustache
  rw [Mustache.tokens, List.forall_mem_append, List.forall_mem_cons, List.forall_mem_singleton]
  refine ⟨⟨?_, call.inner_of_mem⟩, ?_⟩
  · cases trusting <;> exact ⟨nofun, nofun⟩
  · cases trusting <;> exact ⟨nofun, nofun⟩

theorem Value.inner_of_mem (value : Value) : ∀ token ∈ value.tokens, token.kind.Inner := by
  cases value with
  | text lexeme =>
      rw [Value.tokens, List.forall_mem_singleton]
      exact ⟨nofun, nofun⟩
  | mustache curly => exact curly.inner_of_mem
  | quoted opening parts closing =>
      rw [Value.tokens, List.forall_mem_append, List.forall_mem_cons, List.forall_mem_singleton,
        List.forall_mem_flatMap]
      refine ⟨⟨⟨nofun, nofun⟩, fun part _ => ?_⟩, ⟨nofun, nofun⟩⟩
      cases part with
      | text lexeme =>
          rw [QuotedPart.tokens, List.forall_mem_singleton]
          exact ⟨nofun, nofun⟩
      | mustache curly => exact curly.inner_of_mem

/-- None of the tokens of a part ends the tag. -/
theorem TagPart.inner_of_mem (part : TagPart) : ∀ token ∈ part.tokens, token.kind.Inner := by
  cases part with
  | flag name | params lexeme | comment lexeme =>
      rw [TagPart.tokens, List.forall_mem_singleton]
      exact ⟨nofun, nofun⟩
  | «attribute» name equals value =>
      rw [TagPart.tokens, List.forall_mem_cons, List.forall_mem_cons]
      exact ⟨⟨nofun, nofun⟩, ⟨nofun, nofun⟩, value.inner_of_mem⟩
  | modifier opening call closing =>
      rw [TagPart.tokens, List.forall_mem_append, List.forall_mem_cons,
        List.forall_mem_singleton]
      exact ⟨⟨⟨nofun, nofun⟩, call.inner_of_mem⟩, ⟨nofun, nofun⟩⟩

/-- The end of an opening tag is the first such token from its name on. -/
theorem Tag.kind_ne_tagEnd (tag : Tag) : ∀ token ∈ tag.tokens, token.kind ≠ .tagEnd := by
  rw [Tag.tokens, List.forall_mem_cons, List.forall_mem_flatMap]
  exact ⟨nofun, fun part _ token hmem => (part.inner_of_mem token hmem).ne_tagEnd⟩

/-! ## Statements -/

/-- The head of a block closes its own braces, whichever kind they are. -/
theorem Head.openAfter_tokens {kind : Kind}
    (hkind : ∀ opened, kind.reshape opened = .expression :: opened) (opened : List Construct)
    (head : Head) : openAfter opened (head.tokens kind) = opened := by
  obtain ⟨opening, call, params, closing⟩ := head
  rw [Head.tokens, List.cons_append, List.cons_append, openAfter_cons, openAfter_append,
    openAfter_append]
  dsimp only
  rw [hkind, Call.openAfter_tokens]
  cases params <;> rfl

theorem BlockEnd.openAfter_tokens (opened : List Construct) (close : BlockEnd) :
    openAfter opened close.tokens = opened := rfl

mutual

/-- A statement closes all it opens. Blocks hold statements again, so this goes with the same
of inverses and of lists of statements. -/
@[simp] theorem Statement.openAfter_tokens (opened : List Construct) (statement : Statement) :
    openAfter opened statement.tokens = opened := by
  cases statement with
  | text | htmlComment | curlyComment =>
      rw [Statement.tokens]
      rfl
  | mustache curly =>
      rw [Statement.tokens, Mustache.openAfter_tokens]
  | block head program inverse close =>
      rw [Statement.tokens, openAfter_append, openAfter_append, openAfter_append,
        head.openAfter_tokens fun _ => rfl, openAfter_statementTokens, Inverse.openAfter_tokens,
        BlockEnd.openAfter_tokens]
  | element tag tagEnd body endTag =>
      rw [Statement.tokens, openAfter_append, openAfter_append, Tag.openAfter_tokens,
        openAfter_cons]
      show openAfter (openAfter opened (statementTokens body)) _ = _
      rw [openAfter_statementTokens]
      rfl
  | selfClosing tag tagEnd =>
      rw [Statement.tokens, openAfter_append, Tag.openAfter_tokens]
      rfl
  | void tag tagEnd =>
      rw [Statement.tokens, openAfter_append, Tag.openAfter_tokens]
      rfl
termination_by structural statement

/-- What comes after `else` closes all it opens. -/
theorem Inverse.openAfter_tokens (opened : List Construct) (inverse : Inverse) :
    openAfter opened inverse.tokens = opened := by
  cases inverse with
  | absent => rw [Inverse.tokens, openAfter_nil]
  | otherwise opening closing program =>
      rw [Inverse.tokens, openAfter_cons, openAfter_cons, openAfter_statementTokens]
      rfl
  | chained head program inverse =>
      rw [Inverse.tokens, openAfter_append, openAfter_append,
        head.openAfter_tokens fun _ => rfl, openAfter_statementTokens, Inverse.openAfter_tokens]
termination_by structural inverse

@[simp] theorem openAfter_statementTokens (opened : List Construct)
    (statements : List Statement) : openAfter opened (statementTokens statements) = opened := by
  cases statements with
  | nil => rw [statementTokens, openAfter_nil]
  | cons statement rest =>
      rw [statementTokens, openAfter_append, Statement.openAfter_tokens,
        openAfter_statementTokens]
termination_by structural statements

end

end Phrase

end TemplateUsage
