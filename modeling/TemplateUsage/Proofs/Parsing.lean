import TemplateUsage.Proofs.Grammar.Building
import TemplateUsage.Proofs.Grammar.Realisation
import TemplateUsage.Proofs.Recogniser.Completeness
import TemplateUsage.Template

set_option autoImplicit false

/-!
# Parsing follows the grammar

A text that is scanned without a fault is recognised exactly when the kinds of its
tokens are derivable in the grammar. Its derivation is then unique, and the tree of
the template is the meaning of that derivation, or the error that stops it. Main
statement: `parse_eq_meaning`.
-/

namespace TemplateUsage

open Grammar Phrase

/-! ## Derivations and statements -/

namespace Grammar

/-- The derivations of tokens are the trees of the statements written with them. -/
theorem derivation_iff_exists_statements (tree : ParseTree) (tokens : List Token) :
    tree.Derivation tokens ↔
      ∃ statements, templateTree statements = tree ∧ statementTokens statements = tokens := by
  constructor
  · rintro ⟨hvalid, hroot, rfl⟩
    obtain ⟨statements, rfl⟩ := exists_templateTree hvalid hroot
    exact ⟨statements, rfl, (tokens_templateTree statements).symm⟩
  · rintro ⟨statements, rfl, rfl⟩
    obtain ⟨hroot, hvalid⟩ := valid_templateTree statements
    exact ⟨hvalid, hroot, tokens_templateTree statements⟩

end Grammar

/-- Tokens are written for at most one list of statements. -/
theorem Phrase.statementTokens_injective {first second : List Statement}
    (h : statementTokens first = statementTokens second) : first = second := by
  obtain ⟨final, hread, hfirst⟩ := (Recogniser.recognises_iff _ first).2 rfl
  obtain ⟨other, hother, hsecond⟩ := (Recogniser.recognises_iff _ second).2 h.symm
  -- The recogniser is a function: the same tokens cannot end in two ways.
  rw [hread] at hother
  cases hother
  rw [hfirst] at hsecond
  exact Except.ok.inj hsecond

theorem Grammar.ParseTree.Derivation.unique {tree other : ParseTree} {tokens : List Token}
    (htree : tree.Derivation tokens) (hother : other.Derivation tokens) : tree = other := by
  obtain ⟨first, rfl, rfl⟩ := (derivation_iff_exists_statements tree tokens).1 htree
  obtain ⟨second, rfl, htokens⟩ := (derivation_iff_exists_statements other _).1 hother
  rw [statementTokens_injective htokens]

namespace Template

/-! ## Texts -/

/-- A text without a fault of the scanner is recognised as the statements its tokens
are written for. -/
theorem recognise_eq_ok_iff {source : String} (hscan : (Scan.ofText source).rejection = none)
    (statements : List Statement) :
    recognise source = .ok statements ↔
      statementTokens statements = (Scan.ofText source).tokens := by
  rw [← Recogniser.recognises_iff, recognise, read]
  cases hread : Recogniser.Config.initial.readAll (Scan.ofText source).tokens with
  | error refusal =>
      constructor
      · intro h
        cases h
      · rintro ⟨final, hfinal, -⟩
        cases hfinal
  | ok config =>
      rw [hscan]
      dsimp only [bind, Except.bind]
      cases hfinish : config.finish with
      | error expected =>
          constructor
          · intro h
            cases h
          · rintro ⟨final, hfinal, h⟩
            cases hfinal
            rw [hfinish] at h
            cases h
      | ok found =>
          constructor
          · intro h
            cases h
            exact ⟨config, rfl, hfinish⟩
          · rintro ⟨final, hfinal, h⟩
            cases hfinal
            rw [hfinish] at h
            cases h
            rfl

/-- A text that is recognised is scanned without a fault. -/
theorem rejection_of_recognise {source : String} {statements : List Statement}
    (h : recognise source = .ok statements) : (Scan.ofText source).rejection = none := by
  cases hrejection : (Scan.ofText source).rejection with
  | none => rfl
  | some rejection =>
      rw [recognise, read, hrejection] at h
      cases hread : Recogniser.Config.initial.readAll (Scan.ofText source).tokens with
      | error refusal =>
          rw [hread] at h
          cases h
      | ok config =>
          rw [hread] at h
          cases h

/-- A text has a tree exactly when it is scanned without a fault and its tokens are
those of statements that the tree is built from. -/
theorem parse_eq_ok_iff {file source : String} {root : Node} :
    parse file source = .ok root ↔
      (Scan.ofText source).rejection = none ∧ ∃ statements,
        statementTokens statements = (Scan.ofText source).tokens ∧
          buildTemplate file statements = .ok root := by
  constructor
  · intro h
    rw [parse] at h
    split at h
    · cases h
    · rename_i statements hrecognise
      have hscan := rejection_of_recognise hrecognise
      refine ⟨hscan, statements, (recognise_eq_ok_iff hscan statements).1 hrecognise, ?_⟩
      split at h
      · cases h
        assumption
      · cases h
      · cases h
  · rintro ⟨hscan, statements, htokens, hbuild⟩
    rw [parse, (recognise_eq_ok_iff hscan statements).2 htokens]
    dsimp only
    rw [hbuild]

/-- Parsing a text stops at a number exactly when it is scanned without a fault and its
tokens are those of statements whose building stops there. -/
theorem parse_eq_numeral_iff {file source : String} {error : NumeralError} :
    parse file source = .error (.numeral error) ↔
      (Scan.ofText source).rejection = none ∧ ∃ statements,
        statementTokens statements = (Scan.ofText source).tokens ∧
          buildTemplate file statements = .error (.numeral error) := by
  constructor
  · intro h
    rw [parse] at h
    split at h
    · cases h
    · rename_i statements hrecognise
      have hscan := rejection_of_recognise hrecognise
      refine ⟨hscan, statements, (recognise_eq_ok_iff hscan statements).1 hrecognise, ?_⟩
      split at h
      · cases h
      · cases h
      · cases h
        assumption
  · rintro ⟨hscan, statements, htokens, hbuild⟩
    rw [parse, (recognise_eq_ok_iff hscan statements).2 htokens]
    dsimp only
    rw [hbuild]

theorem exists_of_isOk {α β : Type} {result : Except α β} (h : result.isOk = true) :
    ∃ value, result = .ok value := by
  cases result with
  | ok value => exact ⟨value, rfl⟩
  | error error => cases h

/-- What parsing gives, by the meanings of a derivation. -/
def outcome? (source : String) : Except Stop (List Meaning) → Option (Except ParseError Node)
  | .ok [.node node] => some (.ok node)
  | .error (.raised fault (some location)) =>
      some (.error (.rejected ⟨fault, location, some source⟩))
  | .error (.numeral error) => some (.error (.numeral error))
  | _ => none

/-- Parsing a recognised text is building its statements. -/
theorem outcome?_meanings_templateTree {file source : String} {statements : List Statement}
    (h : recognise source = .ok statements) :
    outcome? source ((templateTree statements).meanings file) = some (parse file source) := by
  rw [meanings_templateTree, parse, h]
  dsimp only
  cases buildTemplate file statements with
  | ok node => rfl
  | error error =>
      cases error with
      | rejected rejection => rfl
      | numeral error => rfl

/-- Of a text that is scanned without a fault: it is recognised exactly when the kinds
of its tokens are derivable from the start of the grammar; the derivation of its
tokens is then unique; and parsing it gives what applying the methods of the
productions bottom-up to the derivation gives, the tree or the error of the method
that stops. -/
theorem parse_eq_meaning (file source : String)
    (hscan : (Scan.ofText source).rejection = none) :
    ((∃ statements, recognise source = .ok statements) ↔
      Derives [.phrase .start] ((Scan.ofText source).tokens.map Token.kind)) ∧
    (Derives [.phrase .start] ((Scan.ofText source).tokens.map Token.kind) →
      ∃ tree : ParseTree, tree.Derivation (Scan.ofText source).tokens ∧
        (∀ other : ParseTree, other.Derivation (Scan.ofText source).tokens → other = tree) ∧
        outcome? source (tree.meanings file) = some (parse file source)) := by
  have hrecognised : (∃ statements, recognise source = .ok statements) ↔
      ∃ tree : ParseTree, tree.Derivation (Scan.ofText source).tokens := by
    constructor
    · rintro ⟨statements, hstatements⟩
      rw [recognise_eq_ok_iff hscan] at hstatements
      exact ⟨templateTree statements,
        (derivation_iff_exists_statements _ _).2 ⟨statements, rfl, hstatements⟩⟩
    · rintro ⟨tree, htree⟩
      obtain ⟨statements, -, htokens⟩ := (derivation_iff_exists_statements _ _).1 htree
      exact ⟨statements, (recognise_eq_ok_iff hscan statements).2 htokens⟩
  refine ⟨hrecognised.trans (derives_iff_exists_tree _).symm, fun hderives => ?_⟩
  -- The tree is that of the statements the recogniser finds, so its meaning is what they build.
  obtain ⟨tree, htree⟩ := (derives_iff_exists_tree _).1 hderives
  refine ⟨tree, htree, fun other hother => hother.unique htree, ?_⟩
  obtain ⟨statements, rfl, htokens⟩ := (derivation_iff_exists_statements _ _).1 htree
  exact outcome?_meanings_templateTree ((recognise_eq_ok_iff hscan statements).2 htokens)

/-- A block with an else around an element. -/
def elseBlock : String :=
  "\x7b\x7b#a b\x7d\x7dc\x7b\x7belse\x7d\x7d<D e='\x7b\x7bf\x7d\x7d'/>\x7b\x7b/a\x7d\x7d"

/-- The block is recognised, so it has one derivation, whose meaning is what parsing
gives. -/
theorem parse_eq_meaning_block :
    (Scan.ofText elseBlock).rejection = none ∧
      ∃ tree : ParseTree, tree.Derivation (Scan.ofText elseBlock).tokens ∧
        (∀ other : ParseTree, other.Derivation (Scan.ofText elseBlock).tokens → other = tree) ∧
        outcome? elseBlock (tree.meanings "page") = some (parse "page" elseBlock) := by
  have hscan : (Scan.ofText elseBlock).rejection = none := by decide +kernel
  have hrecognised : (recognise elseBlock).isOk = true := by decide +kernel
  obtain ⟨hiff, hderivation⟩ := parse_eq_meaning "page" elseBlock hscan
  exact ⟨hscan, hderivation (hiff.1 (exists_of_isOk hrecognised))⟩

end Template

end TemplateUsage
