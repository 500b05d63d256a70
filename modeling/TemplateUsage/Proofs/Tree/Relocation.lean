import TemplateUsage.Proofs.Tree.Revision

set_option autoImplicit false

/-!
# Tokens and trees in another place

The same tokens may stand in another place of a text, or in another text. They then have
other spans and the same values. A tree is moved with them by moving the two points of each
of its locations, and the usages of a moved tree are the moved usages
(`Node.walkAll_relocate`).
-/

namespace TemplateUsage

/-! ## Moved tokens -/

/-- The span between the moved points. -/
def Span.relocate (move : Point → Point) (span : Span) : Span :=
  ⟨move span.start, move span.stop⟩

/-- The lexeme in another place. -/
def Lexeme.relocate (move : Point → Point) (lexeme : Lexeme) : Lexeme :=
  ⟨lexeme.value, lexeme.span.relocate move⟩

/-- The token in another place. -/
def Token.relocate (move : Point → Point) (token : Token) : Token :=
  ⟨token.kind, token.lexeme.relocate move⟩

/-! ## Moved trees -/

/-- The location between the moved points. -/
def Location.relocate (move : Point → Point) (location : Location) : Location :=
  (Span.mk (move ⟨location.start.toNat, location.line.toNat, location.column.toNat⟩)
    (move ⟨location.stop.toNat, location.endLine.toNat, location.endColumn.toNat⟩)).inFile
    location.file

/-- The usage in another place. -/
def Usage.relocate (move : Point → Point) (usage : Usage) : Usage :=
  { usage with location := usage.location.map (Location.relocate move) }

/-- Moves every location and leaves the rest. -/
def Revision.relocate (move : Point → Point) : Revision where
  place := Option.map (Location.relocate move)
  comment _ text := text
  literal := id

namespace Node

variable (move : Point → Point)

/-- The tree in another place. -/
def relocate : Node → Node := revise (.relocate move)

/-- The trees in another place. -/
def relocateAll : List Node → List Node := reviseAll (.relocate move)

/-- The trees are moved one by one. -/
theorem relocateAll_eq_map (nodes : List Node) :
    relocateAll move nodes = nodes.map (relocate move) :=
  reviseAll_eq_map (.relocate move) nodes

/-- The usages of a moved tree are the moved usages. -/
theorem walk_relocate (node : Node) (scope : Scope) :
    (node.relocate move).walk scope = (node.walk scope).map (Usage.relocate move) :=
  walk_revise (.relocate move) node scope

/-- The usages of moved trees are the moved usages. -/
theorem walkAll_relocate (nodes : List Node) (scope : Scope) :
    walkAll (relocateAll move nodes) scope = (walkAll nodes scope).map (Usage.relocate move) :=
  walkAll_revise (.relocate move) nodes scope

end Node

end TemplateUsage
