/-!
# Decoding UTF-8

Bytes are decoded one character after the other. Bytes that start with no complete character end
the decoding, and the bytes in front of them tell where.
-/

namespace Stencil.Text

/-- Decodes the bytes from a place on, behind the characters read so far, the latest first. An error
is the place of the first bytes that are no character. -/
def decodeFrom (bytes : ByteArray) (place : Nat) (read : List Char) : Except Nat (List Char) :=
  if place < bytes.size then
    match bytes.utf8DecodeChar? place with
    | some character => decodeFrom bytes (place + character.utf8Size) (character :: read)
    | none => .error place
  else .ok read.reverse
termination_by bytes.size - place
decreasing_by
  have := character.utf8Size_pos
  omega

def decodeUtf8 (bytes : ByteArray) : Except Nat (List Char) :=
  decodeFrom bytes 0 []

/-- The text with the given bytes. Bytes of no text have none. -/
def ofUtf8 (bytes : ByteArray) : String :=
  match decodeUtf8 bytes with
  | .ok characters => .ofList characters
  | .error _ => ""

/-- Whether a byte begins a character. Those by which a character goes on have the two highest bits
`10`. -/
def beginsCharacter (byte : UInt8) : Bool :=
  byte &&& 0xc0 ≠ 0x80

def charactersBefore (bytes : ByteArray) (place : Nat) : Nat :=
  (bytes.toList.take place).countP beginsCharacter

end Stencil.Text
