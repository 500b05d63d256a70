set_option autoImplicit false

/-!
# Splitting a text at separators

A text with `n` separators has `n + 1` pieces, empty ones among them.
-/

namespace TemplateUsage.Text

/-- Puts a character in front of the first piece. -/
def consPiece (c : Char) : List (List Char) → List (List Char)
  | [] => [[c]]
  | piece :: pieces => (c :: piece) :: pieces

/-- Pieces of a text between single characters. -/
def splitAtChar (separator : Char) : List Char → List (List Char)
  | [] => [[]]
  | c :: rest =>
      if c = separator then [] :: splitAtChar separator rest
      else consPiece c (splitAtChar separator rest)

/-- Pieces of a text between pairs of one character, read from the left. -/
def splitAtPair (separator : Char) : List Char → List (List Char)
  | [] => [[]]
  | [c] => [[c]]
  | c :: d :: rest =>
      if c = separator ∧ d = separator then [] :: splitAtPair separator rest
      else consPiece c (splitAtPair separator (d :: rest))

/-- The pieces with a separator between neighbours. -/
def join (separator : List Char) : List (List Char) → List Char
  | [] => []
  | [piece] => piece
  | piece :: pieces => piece ++ separator ++ join separator pieces

/-- Lines of a text: its pieces between newlines. -/
def lines (s : String) : List String := (splitAtChar '\n' s.toList).map String.ofList

end TemplateUsage.Text
