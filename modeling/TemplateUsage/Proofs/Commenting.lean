import TemplateUsage.Proofs.Earliest
import TemplateUsage.Proofs.Rewording
import TemplateUsage.Proofs.Scan.Comments
import TemplateUsage.Proofs.Tree.Candidates

set_option autoImplicit false

/-!
# Comments are opaque

What a comment says matters to nothing but the value of the comment: with another content
that its delimiters admit, the text is a template too, with a tree that is equal but for that
value, and with the same usages. Main statement: `Template.refill_comment`.
-/

namespace TemplateUsage

open Grammar

/-- The token with its lexeme edited, if it is a comment. -/
def Token.recomment (edit : Lexeme → Lexeme) : Token → Token
  | ⟨.htmlComment, lexeme⟩ => ⟨.htmlComment, edit lexeme⟩
  | ⟨.curlyComment, lexeme⟩ => ⟨.curlyComment, edit lexeme⟩
  | token => token

/-! ## One comment -/

/-- The lexeme with another text, if it is the one at the span. -/
def Lexeme.refill (span : Span) (content : String) (lexeme : Lexeme) : Lexeme :=
  if lexeme.span = span then ⟨content, span⟩ else lexeme

/-- Writes the text for the comment at the location and nothing else. -/
def Revision.refill (location : Location) (content : String) : Revision where
  place := id
  comment place value := if place = some location then content else value
  literal := id

/-- A comment that is refilled stays where it is. -/
theorem Lexeme.span_refill (span : Span) (content : String) (lexeme : Lexeme) :
    (lexeme.refill span content).span = lexeme.span := by
  unfold Lexeme.refill
  split
  · exact Eq.symm ‹_›
  · rfl

theorem Token.span_recomment {edit : Lexeme → Lexeme}
    (h : ∀ lexeme, (edit lexeme).span = lexeme.span) (token : Token) :
    (token.recomment edit).lexeme.span = token.lexeme.span := by
  obtain ⟨kind, lexeme⟩ := token
  cases kind with
  | htmlComment | curlyComment => exact h lexeme
  | _ => rfl

/-- Refills the comment at the span. -/
def Grammar.Edit.refill (file : String) (span : Span) (content : String) : Edit file file where
  token := Token.recomment (Lexeme.refill span content)
  locate := id
  comment := (Revision.refill (span.inFile file) content).comment
  kind_token token := by
    obtain ⟨kind, lexeme⟩ := token
    cases kind <;> rfl
  value_token token _ hcomment := by
    obtain ⟨kind, lexeme⟩ := token
    cases kind <;> first | rfl | cases hcomment
  value_comment token hcomment := by
    obtain ⟨kind, lexeme⟩ := token
    have hplace : some (lexeme.span.inFile file) = some (span.inFile file) ↔ lexeme.span = span :=
      ⟨fun h => Span.inFile_injective (Option.some.inj h), fun h => by rw [h]⟩
    have hvalue : (lexeme.refill span content).value =
        (Revision.refill (span.inFile file) content).comment
          (some (lexeme.span.inFile file)) lexeme.value := by
      simp only [Revision.refill, Lexeme.refill, hplace]
      split <;> rfl
    cases kind <;> first | exact hvalue | cases hcomment
  locate_span token := by
    rw [Token.span_recomment (Lexeme.span_refill span content)]
    rfl
  locate_cover _ _ := rfl

/-- Refilling a comment revises the tree as the new content does. -/
theorem Grammar.Edit.revision_refill (file : String) (span : Span) (content : String) :
    (Edit.refill file span content).revision = .refill (span.inFile file) content := by
  rw [Edit.revision, Revision.refill]
  exact congrArg (Revision.mk · _ id) Option.map_id

section

variable {token : Token} (content : String)

/-- Refilling one comment leaves every token that stands elsewhere. -/
theorem Token.recomment_refill_of_ne {span : Span} (h : token.lexeme.span ≠ span) :
    token.recomment (Lexeme.refill span content) = token := by
  obtain ⟨kind, lexeme⟩ := token
  have hkeep : lexeme.refill span content = lexeme := if_neg h
  cases kind with
  | htmlComment => rw [recomment, hkeep]
  | curlyComment => rw [recomment, hkeep]
  | _ => rfl

/-- The comment that is refilled has the new content and its old span. -/
theorem Token.recomment_refill_self
    (h : token.kind = .htmlComment ∨ token.kind = .curlyComment) :
    token.recomment (Lexeme.refill token.lexeme.span content) =
      ⟨token.kind, ⟨content, token.lexeme.span⟩⟩ := by
  obtain ⟨kind, lexeme⟩ := token
  have hedit : lexeme.refill lexeme.span content = ⟨content, lexeme.span⟩ := if_pos rfl
  rcases h with rfl | rfl
  · rw [recomment, hedit]
  · rw [recomment, hedit]

/-- No other token stands where a comment does, so the comment alone is edited. -/
theorem map_recomment_refill {front back : List Token}
    (hascends : Ascends (front ++ token :: back))
    (h : token.kind = .htmlComment ∨ token.kind = .curlyComment) :
    (front ++ token :: back).map (Token.recomment (Lexeme.refill token.lexeme.span content)) =
      front ++ ⟨token.kind, ⟨content, token.lexeme.span⟩⟩ :: back := by
  obtain ⟨-, hback, hfront⟩ := List.pairwise_append.1 hascends
  have hkeep : ∀ tokens : List Token, (∀ other ∈ tokens, other.start ≠ token.start) →
      tokens.map (Token.recomment (Lexeme.refill token.lexeme.span content)) = tokens := by
    intro tokens hothers
    refine (List.map_congr_left fun other hmem => ?_).trans (List.map_id tokens)
    refine Token.recomment_refill_of_ne content fun hspan => hothers other hmem ?_
    exact congrArg (fun span => span.start.offset) hspan
  rw [List.map_append, List.map_cons, Token.recomment_refill_self content h, hkeep, hkeep]
  · intro other hmem
    obtain ⟨hlt, hle, -⟩ := (List.pairwise_cons.1 hback).1 other hmem
    omega
  · intro other hmem
    obtain ⟨hlt, hle, -⟩ := hfront other hmem token List.mem_cons_self
    omega

end

/-! ## Templates -/

/-- The token is a comment that stands between the delimiters in the text. -/
structure Scan.Delimiters.Holds (delimiters : Delimiters) (source : String) (token : Token) :
    Prop where
  kind : token.kind = delimiters.kind
  written : slice source.toList token.start token.stop =
    delimiters.enclose token.lexeme.value.toList

namespace Template

open Scan Phrase

/-- With a new content in one comment the scanner reads the same tokens, but for the value of
the comment. -/
theorem ofText_refill {source content other : String} {token : Token} {delimiters : Delimiters}
    (hscan : (Scan.ofText source).rejection = none) (htoken : token ∈ (Scan.ofText source).tokens)
    (hkind : token.kind = .htmlComment ∨ token.kind = .curlyComment)
    (hholds : delimiters.Holds source token) (hadmits : delimiters.Admits content.toList)
    (hother : other = splice source (token.start + delimiters.opener.length)
      (token.stop - delimiters.closer.length) content) :
    (Scan.ofText other).rejection = none ∧
      (Scan.ofText other).tokens.map Token.reading =
        ((Scan.ofText source).tokens.map
          (Token.recomment (Lexeme.refill token.lexeme.span content))).map Token.reading := by
  obtain ⟨pieces, hscanned, hpieces⟩ := exists_scanned hscan
  have hascends := Ascends.of_laid (laid_ofText source)
  rw [hpieces] at htoken
  obtain ⟨piece, hpiece, rfl⟩ := List.mem_map.1 htoken
  obtain ⟨front, back, rfl⟩ := List.append_of_mem hpiece
  rw [List.map_append, List.map_cons] at hpieces
  rw [hpieces] at hascends
  have hslice : slice source.toList piece.start piece.stop = delimiters.enclose piece.value := by
    have hwritten := hholds.written
    rwa [Piece.token, String.toList_ofList] at hwritten
  obtain ⟨stop, others, hrefilled, hreading⟩ := hscanned.refill hholds.kind hslice hadmits
  have htext : other = String.ofList (source.toList.take (piece.start + delimiters.opener.length) ++
      content.toList ++ source.toList.drop (piece.stop - delimiters.closer.length)) := hother
  rw [htext, hrefilled.ofText_eq, hpieces, map_recomment_refill content hascends hkind]
  refine ⟨rfl, ?_⟩
  simp only [List.map_append, List.map_cons]
  rw [map_reading_token _ _ hreading, map_reading_token _ _ (rfl : front.map Piece.reading = _),
    Token.reading, Piece.token, String.ofList_toList]
  rfl

/-- Every comment stands between delimiters, and may be given any content they admit. In the
text with the new content the scanner reads the same tokens but for the value of the comment.
It is parsed to a tree that is equal but for that value, with the same usages. -/
theorem refill_comment {file source : String} {root : Node} {token : Token}
    (h : parse file source = .ok root) (htoken : token ∈ (Scan.ofText source).tokens)
    (hkind : token.kind = .htmlComment ∨ token.kind = .curlyComment) :
    (∃ delimiters : Delimiters, delimiters.Holds source token) ∧
      ∀ (delimiters : Delimiters) (content other : String), delimiters.Holds source token →
        delimiters.Admits content.toList →
        other = splice source (token.start + delimiters.opener.length)
          (token.stop - delimiters.closer.length) content →
        (Scan.ofText other).tokens.map Token.reading =
            ((Scan.ofText source).tokens.map
              (Token.recomment (Lexeme.refill token.lexeme.span content))).map Token.reading ∧
          ∃ tree, parse file other = .ok tree ∧
            (root.revise (.refill (token.lexeme.span.inFile file) content)).same tree = true ∧
            extractTokens file other = extractTokens file source := by
  obtain ⟨hscan, statements, hstatements, hbuild⟩ := parse_eq_ok_iff.1 h
  have hwritten := ((laid_ofText source).located token htoken).placed.written
  obtain ⟨found, hfound, hslice⟩ := hwritten.exists_delimiters hkind
  refine ⟨⟨found, hfound, hslice⟩, fun delimiters content other hholds hadmits hother => ?_⟩
  obtain ⟨hcomplete, hreadings⟩ := ofText_refill hscan htoken hkind hholds hadmits hother
  refine ⟨hreadings, ?_⟩
  -- the tokens are those of the phrases with this one comment edited
  have hwording := map_wording_eq hreadings
  obtain ⟨others, hothers, hrebuild⟩ :=
    exists_revised_of_edit (.refill file token.lexeme.span content) hbuild
  have hedited : statementTokens others = (Scan.ofText source).tokens.map
      (Token.recomment (Lexeme.refill token.lexeme.span content)) := by
    rw [← hstatements]
    exact hothers
  rw [Edit.revision_refill] at hrebuild
  rw [← hedited] at hwording
  obtain ⟨tree, hparse, hsame, htokens⟩ := parse_of_built hcomplete hwording hrebuild
  refine ⟨tree, hparse, hsame, ?_⟩
  rw [htokens, extractTokens_of_parse h, Node.collect_revise, List.map_map]
  rfl

/-- An escaped expression that is not closed, and a comment. -/
def openEscapeNote : String :=
  "\x7b\x7buser-card\x7d\x7d\\\x7b\x7ba <!-- b | c -->"

/-- The comment opens an expression and closes only one of its braces. -/
def openEscapeExpression : String :=
  "\x7b\x7buser-card\x7d\x7d\\\x7b\x7ba <!--\x7b\x7bb\x7d-->"

/-- The escaped expression stays open, though the comment closes a brace after it. -/
theorem refill_comment_openEscape :
    ∃ root token, parse "page" openEscapeNote = .ok root ∧
      token ∈ (Scan.ofText openEscapeNote).tokens ∧ token.kind = .htmlComment ∧
      Delimiters.html.Holds openEscapeNote token ∧
      Delimiters.html.Admits "\x7b\x7bb\x7d".toList ∧
      openEscapeExpression = splice openEscapeNote (token.start + 4) (token.stop - 3)
        "\x7b\x7bb\x7d" ∧
      (Scan.ofText openEscapeExpression).tokens.map Token.reading =
        ((Scan.ofText openEscapeNote).tokens.map (Token.recomment
          (Lexeme.refill token.lexeme.span "\x7b\x7bb\x7d"))).map Token.reading ∧
      ∃ tree, parse "page" openEscapeExpression = .ok tree ∧
        (root.revise (.refill (token.lexeme.span.inFile "page") "\x7b\x7bb\x7d")).same tree = true ∧
        extractTokens "page" openEscapeExpression = extractTokens "page" openEscapeNote := by
  have hok : (parse "page" openEscapeNote).isOk = true := by decide +kernel
  obtain ⟨root, hroot⟩ := exists_of_isOk hok
  have htoken : ⟨.htmlComment, " b | c ", ⟨⟨18, 1, 19⟩, ⟨32, 1, 33⟩⟩⟩ ∈
      (Scan.ofText openEscapeNote).tokens := by decide +kernel
  have hholds : Delimiters.html.Holds openEscapeNote
      ⟨.htmlComment, " b | c ", ⟨⟨18, 1, 19⟩, ⟨32, 1, 33⟩⟩⟩ := ⟨rfl, by decide +kernel⟩
  have hadmits : Delimiters.html.Admits "\x7b\x7bb\x7d".toList :=
    ⟨by decide +kernel, by decide +kernel, by decide +kernel, nofun⟩
  have hother : openEscapeExpression = splice openEscapeNote (18 + 4) (32 - 3) "\x7b\x7bb\x7d" := by
    decide +kernel
  exact ⟨root, _, hroot, htoken, rfl, hholds, hadmits, hother,
    (refill_comment hroot htoken (.inl rfl)).2 _ _ _ hholds hadmits hother⟩

end Template

end TemplateUsage
