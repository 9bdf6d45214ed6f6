import SourcePreview.Digest.Sha256
import SourcePreview.Language.Basic
import SourcePreview.Path
import SourcePreview.Text.Cut
import SourcePreview.Text.Hex
import SourcePreview.Timestamp

/-!
# Keys of previews

The key of a preview is the digest of the path, the modification time, the theme and the language.
Each field is preceded by its length, so that no two choices of the fields give the same material.
A key is written as sixty-four lower-case hexadecimal digits, which is also the name of its entry
file.
-/

namespace SourcePreview

/-- The identity of a preview. -/
structure Key where
  /-- The bytes of the digest. -/
  bytes : Bytes
  /-- There are thirty-two of them. -/
  length_bytes : bytes.length = 32
deriving DecidableEq

namespace Key

/-- The number of digits of a written key. -/
def nameLength : Nat := 64

/-- What the material of every key begins with. -/
def domain : String := "glance/highlight-key/1"

/-- So many low bytes of an integer, low bytes first. -/
def lowBytes : (count : Nat) → Int → Bytes
  | 0, _ => []
  | count + 1, value => UInt8.ofNat (value % 256).toNat :: lowBytes count (value / 256)

/-- A field preceded by its length in eight bytes. -/
def field (bytes : Bytes) : Bytes :=
  lowBytes 8 bytes.length ++ bytes

/-- The nanoseconds from the beginning of 1970 to a point in time, negative if it comes before. -/
def signedNanoseconds (time : Timestamp) : Int :=
  match time.sinceEpoch with
  | .ok after => after.inNanoseconds
  | .error before => -before.inNanoseconds

/-- The bytes that are digested for a preview. -/
def material
    (path : Path)
    (modified : Timestamp)
    (themeId : String)
    (language : Language) : Bytes :=
  Text.encode domain.toList ++ field path.bytes ++
    field (lowBytes 16 (signedNanoseconds modified)) ++ field (Text.encode themeId.toList) ++
      field (Text.encode language.id.toList)

/-- The key of a preview. -/
def derive
    (path : Path)
    (modified : Timestamp)
    (themeId : String)
    (language : Language) : Key :=
  ⟨Sha256.digest (material path modified themeId language), Sha256.length_digest _⟩

/-- The written form of a key. -/
def name (key : Key) : String :=
  String.ofList (key.bytes.flatMap Text.lowerHex)

/-- Whether a byte is a lower-case hexadecimal digit. -/
def isNameByte (byte : UInt8) : Bool :=
  (0x30 ≤ byte && byte ≤ 0x39) || (0x61 ≤ byte && byte ≤ 0x66)

/-- Whether the bytes of a file name have the form of a written key. -/
def isNameBytes (name : Bytes) : Bool :=
  name.length == nameLength && name.all isNameByte

/-- Whether a text has the form of a written key. -/
def isName (name : String) : Bool :=
  isNameBytes (Text.encode name.toList)

/-- Why no key is read from a text. -/
inductive NameError where
  /-- The text is not that of a written key. -/
  | noName
  /-- Two bytes cannot be cut out of the text: it ends before, or they are not whole characters. -/
  | torn
deriving DecidableEq, Repr

/-- Reads bytes from a byte offset on, each from two bytes of the text. -/
def readBytes (text : String) : (offset count : Nat) → Except NameError Bytes
  | _, 0 => .ok []
  | offset, count + 1 =>
    match Text.stretch? text offset (offset + 2) with
    | none => .error .torn
    | some pair =>
      match Text.hexByte? (Text.encode pair.toList) with
      | none => .error .noName
      | some byte => (readBytes text (offset + 2) count).map (byte :: ·)

theorem length_of_readBytes
    {text : String} {offset count : Nat} {bytes : Bytes}
    (reads : readBytes text offset count = .ok bytes) :
    bytes.length = count := by
  induction count generalizing offset bytes with
  | zero =>
      cases reads
      rfl
  | succ count ih =>
      rw [readBytes] at reads
      split at reads
      · cases reads
      · split at reads
        · cases reads
        · cases others : readBytes text (offset + 2) count with
          | error failure =>
              rw [others] at reads
              cases reads
          | ok rest =>
              rw [others] at reads
              cases reads
              exact congrArg (· + 1) (ih others)

/-- Reads the written form of a key. -/
def read (text : String) : Except NameError Key :=
  if isName text then
    match _ : readBytes text 0 32 with
    | .ok bytes => .ok ⟨bytes, length_of_readBytes ‹_›⟩
    | .error failure => .error failure
  else .error .noName

/-- The key with a written form. -/
def ofName? (name : String) : Option Key :=
  (read name).toOption

/-- A key for people to recognise: its first twelve digits. -/
def label (key : Key) : String :=
  "CacheKey(" ++ String.ofList (key.name.toList.take 12) ++ "…)"

end Key

end SourcePreview
