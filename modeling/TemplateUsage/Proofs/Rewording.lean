import TemplateUsage.Proofs.Cutting
import TemplateUsage.Proofs.Tree.Equality

set_option autoImplicit false

/-!
# Texts in other words

What a text is parsed to depends on the kinds of its tokens and, punctuation apart, on
their values: another text with such tokens is parsed to an equal tree, and has the same
usages. Main statement: `Template.parse_of_wording`.
-/

namespace TemplateUsage

open Grammar Phrase

/-! ## Equality of trees -/

namespace Node

variable {move : Point → Point}

/-- A tree that is moved has the same essence. -/
theorem essence_relocate (node : Node) : (node.relocate move).essence = node.essence := by
  rw [essence, relocate, revise_revise]
  rfl

/-- Trees that are moved to the same tree differ in locations only. -/
theorem same_of_relocate_eq {first second : Node}
    (h : first.relocate move = second.relocate move) : first.same second = true := by
  rw [same_iff_essence_eq, ← essence_relocate first, h, essence_relocate]

/-- A tree that is moved has the same usages but for where they stand. -/
theorem tokens_collect_of_relocate_eq {first second : Node}
    (h : first.relocate move = second.relocate move) (scope : Scope) :
    (first.collect scope).map Usage.token = (second.collect scope).map Usage.token := by
  have hmoved : ∀ node : Node, (node.collect scope).map Usage.token =
      ((node.relocate move).walk scope).map Usage.token := by
    intro node
    rw [collect_eq_walk, walk_relocate, List.map_map]
    rfl
  rw [hmoved, hmoved, h]

end Node

/-! ## Wording -/

/-- What a token says: its kind and, unless it is punctuation, its text. -/
def Token.wording (token : Token) : Kind × String :=
  (token.kind, if isPunctuation token.kind then "" else token.lexeme.value)

/-- The token in another place, with its punctuation left out. -/
def Token.recast (move : Point → Point) (token : Token) : Token :=
  ⟨token.kind, if isPunctuation token.kind then "" else token.lexeme.value,
    token.lexeme.span.relocate move⟩

theorem Token.span_recast (move : Point → Point) (token : Token) :
    (token.recast move).lexeme.span = token.lexeme.span.relocate move := rfl

/-- Moves tokens and leaves punctuation out, which no tree records. -/
def Grammar.Edit.recast (file : String) (move : Point → Point) : Edit file file where
  token := Token.recast move
  locate := Location.relocate move
  comment _ text := text
  kind_token _ := rfl
  value_token _ hpunctuation _ := by rw [Token.recast, hpunctuation]; rfl
  value_comment token hcomment := by
    obtain ⟨kind, lexeme⟩ := token
    cases kind <;> first | rfl | cases hcomment
  locate_span token := by
    rw [Token.span_recast]
    rfl
  locate_cover := Location.relocate_cover move

/-- The wording of a token is what it is recast to, wherever it stands. -/
theorem map_recast_eq {tokens others : List Token}
    (h : others.map Token.wording = tokens.map Token.wording) (point : Point) :
    others.map (Token.recast fun _ => point) = tokens.map (Token.recast fun _ => point) := by
  have hrecast :=
    congrArg (List.map fun wording => Token.mk wording.1 ⟨wording.2, ⟨point, point⟩⟩) h
  rw [List.map_map, List.map_map] at hrecast
  exact hrecast

theorem map_kind_eq {tokens others : List Token}
    (h : others.map Token.wording = tokens.map Token.wording) :
    others.map Token.kind = tokens.map Token.kind := by
  have hkinds := congrArg (List.map Prod.fst) h
  rw [List.map_map, List.map_map] at hkinds
  exact hkinds

/-! ## Readings -/

/-- What a token says, punctuation included. -/
def Token.reading (token : Token) : Kind × String := (token.kind, token.lexeme.value)

/-- Tokens that say the same have the same wording. -/
theorem map_wording_eq {tokens others : List Token}
    (h : others.map Token.reading = tokens.map Token.reading) :
    others.map Token.wording = tokens.map Token.wording := by
  have hwording := congrArg
    (List.map fun reading => (reading.1, if isPunctuation reading.1 then "" else reading.2)) h
  rw [List.map_map, List.map_map] at hwording
  exact hwording

/-- Tokens say what their pieces read, wherever they stand. -/
theorem Scan.map_reading_token {pieces others : List Scan.Piece} (lines otherLines : Lines)
    (h : others.map Scan.Piece.reading = pieces.map Scan.Piece.reading) :
    (others.map (Scan.Piece.token otherLines)).map Token.reading =
      (pieces.map (Scan.Piece.token lines)).map Token.reading := by
  have hreadings := congrArg (List.map fun reading => (reading.1, String.ofList reading.2)) h
  rw [List.map_map, List.map_map] at hreadings ⊢
  exact hreadings

/-! ## Parsing -/

/-- The text with the characters from `start` up to `stop` replaced. -/
def splice (source : String) (start stop : Nat) (insert : String) : String :=
  String.ofList (source.toList.take start ++ insert.toList ++ source.toList.drop stop)

namespace Template

/-- Statements whose tokens have the same wording as those of statements that are built. They
are built to a tree that differs in locations only. -/
theorem exists_built_of_wording {tokens : List Token} {statements : List Statement}
    {file : String} {root : Node}
    (hwording : tokens.map Token.wording = (statementTokens statements).map Token.wording)
    (hbuild : buildTemplate file statements = .ok root) :
    ∃ others found, statementTokens others = tokens ∧ buildTemplate file others = .ok found ∧
      found.relocate (fun _ => default) = root.relocate fun _ => default := by
  have hderivation := (derivation_iff_exists_statements _ _).2 ⟨statements, rfl, rfl⟩
  -- the kinds are the same, so the other tokens have a derivation too
  obtain ⟨tree, htree⟩ : ∃ tree : ParseTree, tree.Derivation tokens := by
    rw [← derives_iff_exists_tree, map_kind_eq hwording, derives_iff_exists_tree]
    exact ⟨_, hderivation⟩
  -- and the two are recast to derivations of the same tokens
  let edit : Edit file file := .recast file fun _ => default
  have hedited : tokens.map edit.token = (statementTokens statements).map edit.token :=
    map_recast_eq hwording default
  have hrecast := htree.rewrite edit.kind_token
  rw [hedited] at hrecast
  have hsame := hrecast.unique (hderivation.rewrite edit.kind_token)
  have hmeaning := congrArg (ParseTree.meanings file) hsame
  obtain ⟨others, rfl, hothers⟩ := (derivation_iff_exists_statements _ _).1 htree
  rw [htree.meanings_edit, hderivation.meanings_edit, meanings_templateTree,
    meanings_templateTree, hbuild] at hmeaning
  cases hother : buildTemplate file others with
  | error error =>
      rw [hother] at hmeaning
      cases hmeaning
  | ok found =>
      rw [hother] at hmeaning
      refine ⟨others, found, hothers, hother, ?_⟩
      injection hmeaning with hmeaning
      injection hmeaning with hmeaning
      injection hmeaning

/-- A text with the wording of statements that are built is parsed to an equal tree, and its
usages are those of the tree. -/
theorem parse_of_built {file source : String} {statements : List Statement} {root : Node}
    (hscan : (Scan.ofText source).rejection = none)
    (hwording : (Scan.ofText source).tokens.map Token.wording =
      (statementTokens statements).map Token.wording)
    (hbuild : buildTemplate file statements = .ok root) :
    ∃ tree, parse file source = .ok tree ∧ root.same tree = true ∧
      extractTokens file source = .ok ((root.collect Scope.empty).map Usage.token) := by
  obtain ⟨others, found, hothers, hother, hmoved⟩ := exists_built_of_wording hwording hbuild
  have hparse : parse file source = .ok found := parse_eq_ok_iff.2 ⟨hscan, others, hothers, hother⟩
  refine ⟨found, hparse, Node.same_of_relocate_eq hmoved.symm, ?_⟩
  rw [extractTokens_of_parse hparse, Node.tokens_collect_of_relocate_eq hmoved]

/-- A text with the same wording is parsed to an equal tree and has the same usages. -/
theorem parse_of_wording {source other : String}
    (hscan : (Scan.ofText other).rejection = none)
    (hwording : (Scan.ofText other).tokens.map Token.wording =
      (Scan.ofText source).tokens.map Token.wording)
    {file : String} {root : Node} (h : parse file source = .ok root) :
    ∃ tree, parse file other = .ok tree ∧ root.same tree = true ∧
      extractTokens file other = extractTokens file source := by
  obtain ⟨-, statements, hstatements, hbuild⟩ := parse_eq_ok_iff.1 h
  rw [← hstatements] at hwording
  rw [extractTokens_of_parse h]
  exact parse_of_built hscan hwording hbuild

end Template

end TemplateUsage
