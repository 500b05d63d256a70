import TemplateUsage.Extraction
import TemplateUsage.Proofs.Tree.Rebuilding

set_option autoImplicit false

/-!
# The name of the file

A text is parsed under the name of a file, which every location records and nothing else
depends on. Main statement: `Template.file_only_labels`, parsing and collecting usages under
another name gives the same outcome with the one name replaced by the other.
-/

namespace TemplateUsage

open Grammar

/-- The location with the one name in place of the other, if it has the other. -/
def Location.rename (old new : String) (location : Location) : Location :=
  if location.file = old then { location with file := new } else location

/-- Puts the one name in place of the other in every location. -/
def Revision.rename (old new : String) : Revision where
  place := Option.map (Location.rename old new)
  comment _ text := text
  literal := id

/-- The error with the one name in place of the other. Its cause stays, and with it the
message, the code and the help. -/
def ParseError.rename (old new : String) : ParseError → ParseError
  | .rejected error => .rejected { error with location := error.location.rename old new }
  | .numeral error => .numeral error

theorem Span.rename_inFile (old new : String) (span : Span) :
    (span.inFile old).rename old new = span.inFile new := by
  have hfile : (span.inFile old).file = old := rfl
  rw [Location.rename, if_pos hfile]
  rfl

theorem ParseError.rename_ofRejection (old new source : String) (rejection : Rejection) :
    ParseError.rename old new (.rejected (.ofRejection old source rejection)) =
      .rejected (.ofRejection new source rejection) := by
  rw [rename, SyntaxError.ofRejection, Span.rename_inFile]
  rfl

/-- Leaves the tokens and puts the one name in place of the other in their locations. -/
def Grammar.Edit.rename (old new : String) : Edit old new where
  token := id
  locate := Location.rename old new
  comment _ text := text
  kind_token _ := rfl
  value_token _ _ _ := rfl
  value_comment _ _ := rfl
  locate_span token := Span.rename_inFile old new token.lexeme.span
  locate_cover first last := by
    unfold Location.rename coverLocation
    split <;> split <;> rfl

/-- The name of the file is put into the locations of a tree and into nothing else, so that
what is built under another name is built with the name replaced. -/
theorem Phrase.buildTemplate_rename (old new : String) (statements : List Phrase.Statement) :
    buildTemplate new statements =
      (buildTemplate old statements).map (Node.revise (.rename old new)) := by
  obtain ⟨others, hothers, hbuilt⟩ := exists_built_of_edit (.rename old new) statements
  rw [show (Edit.rename old new).token = id from rfl, List.map_id] at hothers
  obtain rfl := statementTokens_injective hothers
  refine asMeanings_injective (hbuilt.trans ?_)
  cases buildTemplate old others with
  | ok root => rfl
  | error error =>
      cases error with
      | rejected rejection =>
          refine congrArg (fun place => Except.error (Stop.raised _ (some place))) ?_
          exact Span.rename_inFile old new rejection.span
      | numeral error => rfl

namespace Template

/-- Parsing under the new name gives what it gives under the old one, with the name replaced.
-/
theorem parse_rename (old new source : String) :
    parse new source =
      ((parse old source).map (Node.revise (.rename old new))).mapError
        (ParseError.rename old new) := by
  rw [parse, parse]
  cases recognise source with
  | error rejection =>
      -- the rejection has no file: it is put into the one or into the other
      exact congrArg Except.error (ParseError.rename_ofRejection old new source rejection).symm
  | ok statements =>
      dsimp only
      rw [Phrase.buildTemplate_rename old new]
      cases Phrase.buildTemplate old statements with
      | ok node => rfl
      | error error =>
          cases error with
          | rejected rejection =>
              exact congrArg Except.error
                (ParseError.rename_ofRejection old new source rejection).symm
          | numeral error => rfl

/-- Whatever the text and the two names, parsing under the new name gives what it gives under
the old one with the name replaced in every location, be it a tree or an error, and so does
collecting usages. -/
theorem file_only_labels (old new source : String) :
    parse new source =
        ((parse old source).map (Node.revise (.rename old new))).mapError
          (ParseError.rename old new) ∧
      collectUsages new source =
        ((collectUsages old source).map (List.map (Usage.revise (.rename old new)))).mapError
          (ParseError.rename old new) := by
  refine ⟨parse_rename old new source, ?_⟩
  rw [collectUsages, collectUsages, parse_rename old new]
  split
  · rfl
  · cases parse old source with
    | ok root => exact congrArg Except.ok (root.collect_revise (.rename old new) Scope.empty)
    | error error => rfl

end Template

end TemplateUsage
