import TemplateUsage.Text.CaseTables

set_option autoImplicit false

/-!
# Letter case

Full case mapping: one character may map to several (`ß` to `SS`), and a
capital sigma at the end of a word maps to the final sigma. ASCII letters are
decided without the tables.
-/

namespace TemplateUsage.Text

/-- Full case mapping of one code point: an expansion, else a single image, else itself. -/
def mapCode (expansions : List (Nat × List Nat)) (runs : List CaseRun) (c : Char) : List Char :=
  match expansions.lookup c.toNat with
  | some images => images.map Char.ofNat
  | none => [((CaseRun.image? runs c.toNat).map Char.ofNat).getD c]

/-- Lowercase form of one character, apart from its context. -/
def lowerChar (c : Char) : List Char :=
  if c.toNat < 128 then [c.toLower] else mapCode lowercaseExpansions lowercaseRuns c

/-- Uppercase form of one character. -/
def upperChar (c : Char) : List Char :=
  if c.toNat < 128 then [c.toUpper] else mapCode uppercaseExpansions uppercaseRuns c

/-- Lowercase characters. -/
def isLowercase (c : Char) : Bool :=
  if c.toNat < 128 then c.isLower else lowercaseLetters.any fun run => run.holds c.toNat

/-- Letters that count as the neighbour of a sigma. -/
def isCased (c : Char) : Bool :=
  if c.toNat < 128 then c.isAlpha else inRanges casedRanges c.toNat

/-- Characters passed over when looking for the neighbour of a sigma. -/
def isCaseIgnorable (c : Char) : Bool :=
  if c.toNat < 128 then c == '\'' || c == '.' || c == ':' || c == '^' || c == '`'
  else inRanges caseIgnorableRanges c.toNat

/-- Whether the first character that is not passed over is a letter. -/
def meetsLetter (cs : List Char) : Bool :=
  ((cs.dropWhile isCaseIgnorable).head?.map isCased).getD false

/-- Lowercase form of a text whose preceding characters, nearest first, are `before`. -/
def lowerAfter (before : List Char) : List Char → List Char
  | [] => []
  | c :: rest =>
      (if c = 'Σ' then
        [if meetsLetter before && !meetsLetter rest then 'ς' else 'σ']
      else lowerChar c) ++ lowerAfter (c :: before) rest

/-- Lowercase form of a text. -/
def lower (cs : List Char) : List Char := lowerAfter [] cs

end TemplateUsage.Text
