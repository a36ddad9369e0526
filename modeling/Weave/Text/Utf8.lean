/-!
# Texts and bytes

The bytes of a text in UTF-8, and the text that bytes are shown as which need not be those of a text:
what is no character in them is shown by a sign of its own, once for each broken character.
-/

namespace Weave.Text

/-- The bytes of a text in UTF-8. -/
def utf8 (s : String) : List UInt8 :=
  s.toList.flatMap String.utf8EncodeChar

/-- What a broken character is shown as. -/
def brokenSign : Char := '\ufffd'

/-- The ranges of the bytes that can follow a first byte in a character. A byte that is a character by
itself or begins none has none. The ranges of the second byte rule out characters that are spelled with
more bytes than they need, halves of surrogate pairs and codes behind the last character. -/
def tailRanges (lead : UInt8) : List (UInt8 × UInt8) :=
  if lead < 0xc2 then []
  else if lead < 0xe0 then [(0x80, 0xbf)]
  else if lead = 0xe0 then [(0xa0, 0xbf), (0x80, 0xbf)]
  else if lead = 0xed then [(0x80, 0x9f), (0x80, 0xbf)]
  else if lead < 0xf0 then [(0x80, 0xbf), (0x80, 0xbf)]
  else if lead = 0xf0 then [(0x90, 0xbf), (0x80, 0xbf), (0x80, 0xbf)]
  else if lead < 0xf4 then [(0x80, 0xbf), (0x80, 0xbf), (0x80, 0xbf)]
  else if lead = 0xf4 then [(0x80, 0x8f), (0x80, 0xbf), (0x80, 0xbf)]
  else []

/-- How many bytes at the front lie in these ranges, each in its own. -/
def countFitting : List (UInt8 × UInt8) → List UInt8 → Nat
  | (low, high) :: ranges, b :: bytes =>
    if low ≤ b ∧ b ≤ high then countFitting ranges bytes + 1 else 0
  | _, _ => 0

/-- The characters that bytes are shown as, of which the first `skip` belong to one that is shown
already. A broken character takes up its first byte and those that could go on with it, up to the one
that cannot. -/
def lossyChars : (skip : Nat) → List UInt8 → List Char
  | _, [] => []
  | skip + 1, _ :: rest => lossyChars skip rest
  | 0, lead :: rest =>
    match (lead :: rest).toByteArray.utf8DecodeChar? 0 with
    | some c => c :: lossyChars (c.utf8Size - 1) rest
    | none => brokenSign :: lossyChars (countFitting (tailRanges lead) rest) rest

/-- The text that bytes are shown as. -/
def lossy (bytes : List UInt8) : String :=
  String.ofList (lossyChars 0 bytes)

end Weave.Text
