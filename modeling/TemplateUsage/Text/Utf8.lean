import TemplateUsage.Text.Quoted

set_option autoImplicit false

/-!
# Text from bytes

Reads UTF-8. The bytes are taken one at a time: between characters a byte must
start a sequence, inside a sequence it must continue it. The range of the second
byte depends on the first, which leaves out overlong forms, surrogates and codes
above the last character.
-/

namespace TemplateUsage.Text

/-- Why bytes are not text. -/
inductive Utf8Fault where
  | invalidStart
  | invalidContinuation
  | unexpectedEnd
  deriving DecidableEq, Repr, Inhabited

/-- Bytes that are not text: the fault, the sequence's place and its width so far. -/
structure Utf8Error where
  fault : Utf8Fault
  position : Nat
  width : Nat
  /-- The byte that starts the sequence. -/
  first : Nat
  deriving DecidableEq, Repr, Inhabited

/-- Words for a fault. -/
def Utf8Fault.reason : Utf8Fault → String
  | .invalidStart => "invalid start byte"
  | .invalidContinuation => "invalid continuation byte"
  | .unexpectedEnd => "unexpected end of data"

/-- Message of an error. -/
def Utf8Error.message (error : Utf8Error) : String :=
  let bytes :=
    if error.width = 1 then
      "byte 0x" ++ String.ofList (hexDigits 2 error.first) ++ " in position " ++
        toString error.position
    else
      "bytes in position " ++ toString error.position ++ "-" ++
        toString (error.position + error.width - 1)
  "'utf-8' codec can't decode " ++ bytes ++ ": " ++ error.fault.reason

/-- What the first byte of a longer sequence promises. -/
structure Utf8Lead where
  /-- Bits of the code in the first byte. -/
  bits : Nat
  /-- Bytes that follow. -/
  following : Nat
  /-- Range of the second byte. -/
  low : Nat
  high : Nat
  deriving DecidableEq, Repr, Inhabited

/-- Reads a byte that starts a longer sequence. -/
def utf8Lead? (byte : Nat) : Option Utf8Lead :=
  if byte < 0xC2 then none
  else if byte < 0xE0 then some ⟨byte - 0xC0, 1, 0x80, 0xBF⟩
  else if byte < 0xF0 then
    some ⟨byte - 0xE0, 2, if byte = 0xE0 then 0xA0 else 0x80, if byte = 0xED then 0x9F else 0xBF⟩
  else if byte < 0xF5 then
    some ⟨byte - 0xF0, 3, if byte = 0xF0 then 0x90 else 0x80, if byte = 0xF4 then 0x8F else 0xBF⟩
  else none

/-- A sequence that has begun. -/
structure Utf8Pending where
  first : Nat
  /-- Bytes taken, the first included. -/
  taken : Nat
  /-- What the rest must look like, with the code so far. -/
  lead : Utf8Lead
  deriving DecidableEq, Repr, Inhabited

/-- Decodes the bytes from a position on; `done` holds the characters before, last first. -/
def decodeFrom (position : Nat) (pending : Option Utf8Pending) (done : List Char) :
    List UInt8 → Except Utf8Error (List Char)
  | [] =>
      match pending with
      | none => .ok done.reverse
      | some part => .error ⟨.unexpectedEnd, position - part.taken, part.taken, part.first⟩
  | b :: rest =>
      let byte := b.toNat
      match pending with
      | none =>
          if byte < 0x80 then decodeFrom (position + 1) none (Char.ofNat byte :: done) rest
          else
            match utf8Lead? byte with
            | none => .error ⟨.invalidStart, position, 1, byte⟩
            | some lead => decodeFrom (position + 1) (some ⟨byte, 1, lead⟩) done rest
      | some part =>
          if byte < part.lead.low || part.lead.high < byte then
            .error ⟨.invalidContinuation, position - part.taken, part.taken, part.first⟩
          else
            let code := part.lead.bits * 64 + (byte - 0x80)
            if part.lead.following ≤ 1 then
              decodeFrom (position + 1) none (Char.ofNat code :: done) rest
            else
              decodeFrom (position + 1)
                (some ⟨part.first, part.taken + 1, ⟨code, part.lead.following - 1, 0x80, 0xBF⟩⟩)
                done rest

/-- The characters of bytes in UTF-8. -/
def decodeUtf8 (bytes : List UInt8) : Except Utf8Error (List Char) := decodeFrom 0 none [] bytes

/-- Every line end written as a single line feed. -/
def plainLineEnds : List Char → List Char
  | [] => []
  | '\r' :: '\n' :: rest => '\n' :: plainLineEnds rest
  | '\r' :: rest => '\n' :: plainLineEnds rest
  | c :: rest => c :: plainLineEnds rest

/-- The text of a file. -/
def ofFileBytes (bytes : List UInt8) : Except Utf8Error String :=
  (decodeUtf8 bytes).map fun chars => String.ofList (plainLineEnds chars)

end TemplateUsage.Text
