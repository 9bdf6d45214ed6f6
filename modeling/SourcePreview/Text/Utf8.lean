/-!
# UTF-8

Texts are written as bytes one character after the other.  Bytes are read back by a machine that
keeps, between two bytes of one character, how many bytes are still owed and in which range the
next one must lie.  A stretch of bytes that begins like a character but cannot go on is malformed
as a whole, up to the byte that cannot follow; so is a byte that begins no character.
-/

namespace SourcePreview

/-- The contents of a file or the name of one. -/
abbrev Bytes := List UInt8

namespace Text

/-- The bytes of a text. -/
def encode (characters : List Char) : Bytes :=
  characters.flatMap String.utf8EncodeChar

/-- The number of bytes of a text. -/
def byteLength (characters : List Char) : Nat :=
  characters.foldr (fun character bytes => character.utf8Size + bytes) 0

/-- The longest beginning of a text of at most so many bytes that is cut between characters. -/
def bytePrefix : (budget : Nat) → List Char → List Char
  | _, [] => []
  | budget, character :: rest =>
    if character.utf8Size ≤ budget then
      character :: bytePrefix (budget - character.utf8Size) rest
    else []

/-- A character that has begun and is not complete. -/
structure Unfinished where
  /-- How many bytes are owed after the next one. -/
  owed : Nat
  /-- The least value of the next byte. -/
  least : UInt8
  /-- The greatest value of the next byte. -/
  greatest : UInt8
  /-- The bits read so far. -/
  bits : Nat
deriving DecidableEq, Repr

/-- What the first byte of a character may be. -/
inductive FirstByte where
  /-- A character on its own. -/
  | complete (character : Char)
  /-- The beginning of a longer character. -/
  | begins (unfinished : Unfinished)
  /-- No beginning of a character. -/
  | malformed

/-- What a byte is when no character has begun. -/
def firstByte (byte : UInt8) : FirstByte :=
  let value := byte.toNat
  if value < 0x80 then .complete (Char.ofNat value)
  else if value < 0xC2 then .malformed
  else if value < 0xE0 then .begins ⟨0, 0x80, 0xBF, value - 0xC0⟩
  else if value = 0xE0 then .begins ⟨1, 0xA0, 0xBF, 0⟩
  else if value = 0xED then .begins ⟨1, 0x80, 0x9F, 0xD⟩
  else if value < 0xF0 then .begins ⟨1, 0x80, 0xBF, value - 0xE0⟩
  else if value = 0xF0 then .begins ⟨2, 0x90, 0xBF, 0⟩
  else if value < 0xF4 then .begins ⟨2, 0x80, 0xBF, value - 0xF0⟩
  else if value = 0xF4 then .begins ⟨2, 0x80, 0x8F, 4⟩
  else .malformed

/-- The state of reading bytes as characters. -/
structure Decoder where
  /-- The character that has begun, if one has. -/
  unfinished : Option Unfinished
  /-- What has been read, last first; nothing stands for a malformed stretch. -/
  read : List (Option Char)

namespace Decoder

/-- Takes a byte when no character has begun. -/
def begin (read : List (Option Char)) (byte : UInt8) : Decoder :=
  match firstByte byte with
  | .complete character => ⟨none, some character :: read⟩
  | .begins unfinished => ⟨some unfinished, read⟩
  | .malformed => ⟨none, none :: read⟩

/-- Takes the next byte. -/
def feed (decoder : Decoder) (byte : UInt8) : Decoder :=
  match decoder.unfinished with
  | none => begin decoder.read byte
  | some unfinished =>
    if unfinished.least ≤ byte && byte ≤ unfinished.greatest then
      let bits := unfinished.bits * 64 + (byte.toNat - 0x80)
      match unfinished.owed with
      | 0 => ⟨none, some (Char.ofNat bits) :: decoder.read⟩
      | owed + 1 => ⟨some ⟨owed, 0x80, 0xBF, bits⟩, decoder.read⟩
    else begin (none :: decoder.read) byte

/-- What has been read once the bytes have ended, in order. -/
def finish (decoder : Decoder) : List (Option Char) :=
  match decoder.unfinished with
  | none => decoder.read.reverse
  | some _ => (none :: decoder.read).reverse

end Decoder

/-- The characters of some bytes, with nothing for each malformed stretch. -/
def decodeStretches (bytes : Bytes) : List (Option Char) :=
  (bytes.foldl Decoder.feed ⟨none, []⟩).finish

/-- The characters of some bytes, each malformed stretch replaced by one replacement character. -/
def decodeLossy (bytes : Bytes) : List Char :=
  (decodeStretches bytes).map fun stretch => stretch.getD '\ufffd'

/-- The characters of some bytes, if they are well formed. -/
def decode? (bytes : Bytes) : Option (List Char) :=
  (decodeStretches bytes).mapM id

end Text

end SourcePreview
