import TemplateUsage.Number
import TemplateUsage.Text.Blank
import TemplateUsage.Text.Digit
import TemplateUsage.Text.Quoted

set_option autoImplicit false

/-!
# Numerals

Reading numbers. Blanks may stand around a numeral and a sign in front of it;
single underscores may stand between digits; digits of every script are read.
An integer has at most `digitLimit` digits, leading zeros included.
-/

namespace TemplateUsage

/-- Why a numeral is not read. -/
inductive NumeralError where
  | notInteger (text : String)
  | notDecimal (text : String)
  | tooManyDigits (count : Nat)
  deriving DecidableEq, Repr, Inhabited

namespace Numeral

/-- The greatest number of digits of an integer. -/
def digitLimit : Nat := 4300

/-- Blanks that may stand around a numeral. -/
def isPadding (c : Char) : Bool := Text.isBlank c && !(28 ≤ c.toNat && c.toNat ≤ 31)

/-- The text without the blanks in front. -/
def skipPadding (cs : List Char) : List Char := cs.dropWhile isPadding

/-- A sign in front and the rest; a missing sign is positive. -/
def splitSign : List Char → Bool × List Char
  | '-' :: rest => (true, rest)
  | '+' :: rest => (false, rest)
  | cs => (false, cs)

/-- Digits and the underscores between them. -/
def isDigitOrScore (c : Char) : Bool := Text.isDigit c || c == '_'

/-- Values of digits separated by at most one underscore; `none` where an
underscore is not between two digits. -/
def digitValues? : List Char → Option (List Nat)
  | [] => none
  | [c] => (Text.digitValue? c).map ([·])
  | c :: '_' :: rest => do return (← Text.digitValue? c) :: (← digitValues? rest)
  | c :: rest => do return (← Text.digitValue? c) :: (← digitValues? rest)

/-- Reads an integer. -/
def integer (text : String) : Except NumeralError Int :=
  let (negative, unsigned) := splitSign (skipPadding text.toList)
  match digitValues? (unsigned.takeWhile isDigitOrScore) with
  | none => .error (.notInteger text)
  | some digits =>
      if digitLimit < digits.length then .error (.tooManyDigits digits.length)
      else if skipPadding (unsigned.dropWhile isDigitOrScore) ≠ [] then .error (.notInteger text)
      else
        let value : Int := Text.digitsValue digits
        .ok (if negative then -value else value)

/-- Digits that may be missing altogether. -/
def optionalDigits? (cs : List Char) : Option (List Nat) :=
  if cs.isEmpty then some [] else digitValues? cs

/-- Reads the exponent of a decimal, if there is one, to the end of the text. -/
def exponent? : List Char → Option Int
  | [] => some 0
  | c :: rest =>
      if c = 'e' ∨ c = 'E' then
        let (negative, unsigned) := splitSign rest
        (digitValues? unsigned).map fun digits =>
          let value : Int := Text.digitsValue digits
          if negative then -value else value
      else none

/-- Reads a decimal with a point and an optional exponent: sign, digits and scale. -/
def decimalParts? (cs : List Char) : Option (Bool × Nat × Int) :=
  let (negative, unsigned) := splitSign cs
  let whole := unsigned.takeWhile isDigitOrScore
  match unsigned.dropWhile isDigitOrScore with
  | '.' :: rest => do
      let wholeDigits ← optionalDigits? whole
      let fractionDigits ← optionalDigits? (rest.takeWhile isDigitOrScore)
      if wholeDigits.isEmpty && fractionDigits.isEmpty then failure
      let exponent ← exponent? (rest.dropWhile isDigitOrScore)
      return (negative, Text.digitsValue (wholeDigits ++ fractionDigits),
        exponent - fractionDigits.length)
  | _ => none

/-- Reads a decimal with a point. -/
def decimal (text : String) : Except NumeralError Double :=
  let body := (skipPadding (skipPadding text.toList).reverse).reverse
  match decimalParts? body with
  | some (negative, digits, scale) => .ok (Double.ofDecimal negative digits scale)
  | none => .error (.notDecimal text)

/-- Reads a number: a decimal if there is a point in it, else an integer. -/
def read (text : String) : Except NumeralError Number :=
  if text.toList.contains '.' then (decimal text).map .double else (integer text).map .integer

end Numeral

/-- Message of an error. The text shown for an integer is cut after two hundred characters. -/
def NumeralError.message : NumeralError → String
  | .notInteger text =>
      "invalid literal for int() with base 10: " ++
        String.ofList ((Text.quoted text).toList.take 200)
  | .notDecimal text => "could not convert string to float: " ++ Text.quoted text
  | .tooManyDigits count =>
      "Exceeds the limit (" ++ toString Numeral.digitLimit ++
        " digits) for integer string conversion: value has " ++ toString count ++
        " digits; use sys.set_int_max_str_digits() to increase the limit"

end TemplateUsage
