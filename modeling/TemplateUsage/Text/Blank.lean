set_option autoImplicit false

/-!
# Blank characters

The blank characters separate attributes, arguments and block parameters. They
are the ASCII controls 9 to 13 and 28 to 31, the space, and the blanks of the
other scripts. The zero-width space and the byte order mark are not blank.
-/

namespace TemplateUsage.Text

/-- Blank characters. -/
def isBlank (c : Char) : Bool :=
  let n := c.toNat
  (9 ≤ n && n ≤ 13) || (28 ≤ n && n ≤ 32) || n == 0x85 || n == 0xa0 || n == 0x1680 ||
    (0x2000 ≤ n && n ≤ 0x200a) || n == 0x2028 || n == 0x2029 || n == 0x202f || n == 0x205f ||
    n == 0x3000

/-- Texts without a character that is not blank. -/
def isBlankText (s : String) : Bool := s.toList.all isBlank

/-- Maximal runs of characters that are not blank, in order. -/
def words (cs : List Char) : List (List Char) :=
  match _h : cs.dropWhile isBlank with
  | [] => []
  | c :: rest =>
      (c :: rest.takeWhile (!isBlank ·)) :: words (rest.dropWhile (!isBlank ·))
termination_by cs.length
decreasing_by
  have hrest : (rest.dropWhile (!isBlank ·)).length ≤ rest.length :=
    (List.dropWhile_sublist _).length_le
  have hcs : (c :: rest).length ≤ cs.length := _h ▸ (List.dropWhile_sublist _).length_le
  simp only [List.length_cons] at hcs
  omega

end TemplateUsage.Text
