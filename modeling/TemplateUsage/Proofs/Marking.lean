import TemplateUsage.Proofs.Recogniser.Viability
import TemplateUsage.Proofs.Rewording
import TemplateUsage.Proofs.Scan.Marks

set_option autoImplicit false

/-!
# Marks in a template

A mark beside the braces of an expression or of a comment changes nothing about a template:
the text with the mark is a template too, with an equal tree and the same usages. A text
where an expression is empty would be read otherwise with a mark between its braces, but no
such text is a template (`call_not_empty`). Main statement: `Template.splice_mark`.
-/

namespace TemplateUsage

/-! ## Expressions are not empty -/

namespace Recogniser

open Phrase

/-- Braces that open an expression are taken in as the start of a call. -/
theorem Position.eq_openCall_of_shift {position : Position} {kind : Kind} {next : Lexeme → Config}
    (h : position.shift? kind = some next) (hkind : kind = .openCurly ∨ kind = .openTriple) :
    ∃ site, next = openCall site := by
  cases position with
  | content body => rcases hkind with rfl | rfl <;> exact ⟨_, (Option.some.inj h).symm⟩
  | tag opened =>
      rcases hkind with rfl | rfl
      · exact ⟨_, (Option.some.inj h).symm⟩
      · cases h
  | assigned assignment => rcases hkind with rfl | rfl <;> exact ⟨_, (Option.some.inj h).symm⟩
  | quoted quote => rcases hkind with rfl | rfl <;> exact ⟨_, (Option.some.inj h).symm⟩
  | call opened progress => rcases hkind with rfl | rfl <;> cases progress <;> cases h
  | called opened complete =>
      obtain ⟨site, opening, pending⟩ := opened
      cases pending with
      | nil =>
          rcases hkind with rfl | rfl
          all_goals cases site with
          | mustache site trusting => cases trusting <;> cases h
          | head site => cases h
          | modifier tag => cases h
      | cons waiting pending => rcases hkind with rfl | rfl <;> cases h
  | sectionEnd chain =>
      obtain ⟨outer, latest, before⟩ := chain
      rcases hkind with rfl | rfl <;> cases before <;> cases h
  | inverse chain ending =>
      obtain ⟨outer, latest, before⟩ := chain
      rcases hkind with rfl | rfl <;> cases before <;> cases h
  | _ => rcases hkind with rfl | rfl <;> cases h

/-- At the start of a call it cannot be closed. -/
theorem read_openCall_ne_ok (site : Site) (opening : Lexeme) {token : Token}
    (hkind : token.kind = .closeCurly ∨ token.kind = .closeTriple) (next : Config) :
    (openCall site opening).read token ≠ .ok next := by
  obtain ⟨kind, lexeme⟩ := token
  intro h
  obtain ⟨shifted, hshift, -⟩ := Config.exists_shift_of_read h
  rcases hkind with hkind | hkind
  · obtain rfl : kind = .closeCurly := hkind
    rw [Config.settle_of_reduce_none rfl] at hshift
    cases hshift
  · obtain rfl : kind = .closeTriple := hkind
    rw [Config.settle_of_reduce_none rfl] at hshift
    cases hshift

/-- Between the braces of an expression there are other tokens. -/
theorem call_not_empty {statements : List Statement} {front back : List Token} {left right : Token}
    (h : statementTokens statements = front ++ left :: right :: back)
    (hright : right.kind = .closeCurly ∨ right.kind = .closeTriple) :
    left.kind ≠ .openCurly ∧ left.kind ≠ .openTriple := by
  rw [← not_or]
  intro hleft
  obtain ⟨final, hread, -⟩ := (recognises_iff _ statements).2 h
  obtain ⟨config, hfront⟩ := Config.exists_readAll_of_append hread
  rw [Config.readAll_append hfront, Config.readAll] at hread
  split at hread
  · rename_i middle hopened
    rw [Config.readAll] at hread
    split at hread
    · rename_i next hclosed
      obtain ⟨shifted, hshift, rfl⟩ := Config.exists_shift_of_read hopened
      obtain ⟨site, rfl⟩ := Position.eq_openCall_of_shift hshift hleft
      exact read_openCall_ne_ok site left.lexeme hright next hclosed
    · cases hread
  · cases hread

end Recogniser

/-! ## Templates -/

namespace Template

open Scan Grammar Phrase Recogniser

/-- A mark does not change the wording of the token that takes it. -/
theorem wording_mark {piece : Piece} {written marked : List Char} {place stop : Nat}
    (hplace : TakesMark piece.kind written place)
    (hvalue : piece.kind = .curlyComment → marked = piece.value) (lines otherLines : Lines) :
    (Piece.token otherLines ⟨piece.kind, marked, piece.start, stop⟩).wording =
      (piece.token lines).wording := by
  by_cases hcomment : piece.kind = .curlyComment
  · rw [hvalue hcomment]
    rfl
  · have hopening : ∀ kind ∈ curlyKinds, kind ≠ .curlyComment → isPunctuation kind = true := by
      decide
    have hclosing : ∀ kind ∈ [Kind.closeCurly, Kind.closeTriple], isPunctuation kind = true := by
      decide
    have hpunctuation : isPunctuation piece.kind = true := by
      rcases hplace.kind_mem with hkind | hkind
      · exact hopening _ hkind hcomment
      · exact hclosing _ hkind
    simp [Token.wording, Piece.token, hpunctuation]

/-- A mark beside the braces of a token, where there is none yet, is not a part of what the
text says: the tokens have the same wording, so all comments have the same values, and the
text is parsed to an equal tree, with the same usages. -/
theorem splice_mark {file source other : String} {root : Node} {token : Token} {place : Nat}
    (h : parse file source = .ok root) (htoken : token ∈ (Scan.ofText source).tokens)
    (hplace : TakesMark token.kind (slice source.toList token.lexeme.span.start.offset
      token.lexeme.span.stop.offset) place)
    (hother : other = splice source (token.lexeme.span.start.offset + place)
      (token.lexeme.span.start.offset + place) "~") :
    (Scan.ofText other).tokens.map Token.wording =
        (Scan.ofText source).tokens.map Token.wording ∧
      ∃ tree, parse file other = .ok tree ∧ root.same tree = true ∧
        extractTokens file other = extractTokens file source := by
  obtain ⟨hscan, statements, hstatements, -⟩ := parse_eq_ok_iff.1 h
  obtain ⟨pieces, hscanned, hpieces⟩ := exists_scanned hscan
  rw [hpieces] at htoken
  obtain ⟨piece, hpiece, rfl⟩ := List.mem_map.1 htoken
  obtain ⟨front, back, rfl⟩ := List.append_of_mem hpiece
  have hfront : piece.kind ∈ [Kind.closeCurly, Kind.closeTriple] →
      ∀ left ∈ front.getLast?, left.kind ≠ .openCurly ∧ left.kind ≠ .openTriple := by
    intro hkind left hleft
    obtain ⟨before, rfl⟩ := List.getLast?_eq_some_iff.1 hleft
    rw [hpieces, List.append_assoc, List.map_append] at hstatements
    exact call_not_empty hstatements (List.mem_pair.1 hkind)
  obtain ⟨marked, stop, others, hmarked, hvalue, hreading⟩ := hscanned.mark hplace hfront
  have hofText := hmarked.ofText_eq
  have htext : other = String.ofList (source.toList.take (piece.start + place) ++
      '~' :: source.toList.drop (piece.start + place)) := by
    rw [hother, splice, List.append_assoc]
    rfl
  rw [← htext] at hofText
  have hcomplete : (Scan.ofText other).rejection = none := by rw [hofText]
  have hwording : (Scan.ofText other).tokens.map Token.wording =
      (Scan.ofText source).tokens.map Token.wording := by
    rw [hofText, hpieces]
    simp only [List.map_append, List.map_cons]
    rw [map_wording_eq (map_reading_token _ _ hreading),
      map_wording_eq (map_reading_token _ _ (rfl : front.map Piece.reading = _)),
      wording_mark hplace hvalue]
  exact ⟨hwording, parse_of_wording hcomplete hwording h⟩

/-- A number between three braces, in a quoted text, and a comment. -/
def tripleNumber : String :=
  "<p title=\"\x7b\x7b\x7b1\x7d\x7d\x7d\">\x7b\x7b! a \x7d\x7d</p>"

/-- A mark after the first of the braces that close. -/
def markedTripleNumber : String :=
  "<p title=\"\x7b\x7b\x7b1\x7d~\x7d\x7d\">\x7b\x7b! a \x7d\x7d</p>"

/-- The number ends before the braces, with the mark among them too. -/
theorem splice_mark_tripleNumber :
    ∃ root token, parse "page" tripleNumber = .ok root ∧
      token ∈ (Scan.ofText tripleNumber).tokens ∧
      TakesMark token.kind (slice tripleNumber.toList token.lexeme.span.start.offset
        token.lexeme.span.stop.offset) 1 ∧
      markedTripleNumber = splice tripleNumber (token.lexeme.span.start.offset + 1)
        (token.lexeme.span.start.offset + 1) "~" ∧
      (Scan.ofText markedTripleNumber).tokens.map Token.wording =
        (Scan.ofText tripleNumber).tokens.map Token.wording ∧
      ∃ tree, parse "page" markedTripleNumber = .ok tree ∧ root.same tree = true ∧
        extractTokens "page" markedTripleNumber = extractTokens "page" tripleNumber := by
  have hok : (parse "page" tripleNumber).isOk = true := by decide +kernel
  obtain ⟨root, hroot⟩ := exists_of_isOk hok
  have htoken : ⟨.closeTriple, "\x7d\x7d\x7d", ⟨⟨14, 1, 15⟩, ⟨17, 1, 18⟩⟩⟩ ∈
      (Scan.ofText tripleNumber).tokens := by decide +kernel
  have hmark : '~' ∉ slice tripleNumber.toList 14 17 := by decide +kernel
  have hmarked : markedTripleNumber = splice tripleNumber (14 + 1) (14 + 1) "~" := by
    decide +kernel
  exact ⟨root, _, hroot, htoken, .amid rfl hmark, hmarked,
    splice_mark hroot htoken (.amid rfl hmark) hmarked⟩

end Template

end TemplateUsage
