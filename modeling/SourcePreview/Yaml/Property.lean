import SourcePreview.Text.Hex
import SourcePreview.Yaml.Cursor
import SourcePreview.Yaml.Token

/-!
# Anchors, tags and directives

The small tokens that start with an indicator and are followed by white space: the names of
anchors and aliases, tags, and the directives at the beginning of a document.
-/

namespace SourcePreview.Yaml.Property

/-- The name after the indicator of an anchor or alias, and the place after it. -/
def name? (cursor : Cursor) : Option (List Char × Cursor) :=
  let (name, stop) := (cursor.skip 1).takeWhile isNameChar
  let ends := stop.gapAt 0 || stop.rest.head?.any fun character => "?:,]\x7d%@`".contains character
  if name.isEmpty || !ends then none else some (name, stop)

/-- Whether a character may stand for itself in a tag; only between angle brackets may a comma or
a bracket. -/
def isTagChar (inAngles : Bool) (character : Char) : Bool :=
  isNameChar character || ";/?:@&=+$.!~*'()".contains character ||
    (inAngles && ",[]".contains character)

/-- The byte that a per cent sign and two hexadecimal digits stand for. -/
def escapedByte? : List Char → Option UInt8
  | '%' :: high :: low :: _ => do
    if 0x80 ≤ high.toNat ∨ 0x80 ≤ low.toNat then none
    let left ← Text.hexValue? (UInt8.ofNat high.toNat)
    let right ← Text.hexValue? (UInt8.ofNat low.toNat)
    return UInt8.ofNat (left * 16 + right)
  | _ => none

/-- The number of bytes of a character that starts with a byte. -/
def byteCount? (first : UInt8) : Option Nat :=
  if first < 0x80 then some 1
  else if first &&& 0xE0 = 0xC0 then some 2
  else if first &&& 0xF0 = 0xE0 then some 3
  else if first &&& 0xF8 = 0xF0 then some 4
  else none

/-- So many bytes of the same character, each escaped. -/
def followingBytes? : (count : Nat) → List Char → Option Bytes
  | 0, _ => some []
  | count + 1, rest => do
    let byte ← escapedByte? rest
    if byte &&& 0xC0 ≠ 0x80 then none
    return byte :: (← followingBytes? count (rest.drop 3))

/-- The bytes of a character, each escaped. -/
def escapedBytes? (rest : List Char) : Option Bytes := do
  let first ← escapedByte? rest
  let count ← byteCount? first
  return first :: (← followingBytes? (count - 1) (rest.drop 3))

/-- The characters of a tag and the place after them; `rounds` bounds their number. -/
def tagBytesFrom (inAngles : Bool) : (rounds : Nat) → Cursor → Option (Bytes × Cursor)
  | 0, cursor => some ([], cursor)
  | rounds + 1, cursor =>
    match cursor.rest with
    | [] => some ([], cursor)
    | character :: rest =>
      if character = '%' then do
        let bytes ← escapedBytes? (character :: rest)
        let (others, stop) ← tagBytesFrom inAngles rounds (cursor.skip (3 * bytes.length))
        return (bytes ++ others, stop)
      else if isTagChar inAngles character then do
        let (others, stop) ← tagBytesFrom inAngles rounds (cursor.skip 1)
        return (String.utf8EncodeChar character ++ others, stop)
      else some ([], cursor)

/-- The characters of a tag and the place after them. -/
def tagBytes? (inAngles : Bool) (cursor : Cursor) : Option (Bytes × Cursor) :=
  tagBytesFrom inAngles cursor.rest.length cursor

/-- An exclamation mark, a name and, if there is one, another exclamation mark. -/
def handle? (cursor : Cursor) : Option (List Char × Cursor) :=
  if cursor.isAt '!' then
    let (name, stop) := (cursor.skip 1).takeWhile isNameChar
    if stop.isAt '!' then some ('!' :: name ++ ['!'], stop.skip 1)
    else some ('!' :: name, stop)
  else none

/-- The tag whose indicator is at a place: the whole of it between angle brackets, or a handle and
the characters after it. -/
def tagParts? (cursor : Cursor) : Option (List Char × Bytes × Cursor) := do
  if (cursor.skip 1).isAt '<' then
    let (bytes, stop) ← tagBytes? true (cursor.skip 2)
    if bytes.isEmpty ∨ !stop.isAt '>' then none
    return ([], bytes, stop.skip 1)
  else
    let (handle, stop) ← handle? cursor
    if 1 < handle.length ∧ handle.getLast? = some '!' then
      let (bytes, stop) ← tagBytes? false stop
      if bytes.isEmpty then none
      return (handle, bytes, stop)
    else
      let (bytes, stop) ← tagBytes? false stop
      let suffix := handle.tail.flatMap String.utf8EncodeChar ++ bytes
      if suffix.isEmpty then return ([], [0x21], stop)
      return (['!'], suffix, stop)

/-- The token of a tag and the place after it. -/
def tag? (inFlow : Bool) (cursor : Cursor) : Option (Token × Cursor) := do
  let (handle, suffix, stop) ← tagParts? cursor
  if stop.gapAt 0 || (inFlow && stop.isAt ',') then return (.tag handle suffix, stop) else none

/-- A number of at most nine digits and the place after it. -/
def number? (cursor : Cursor) : Option (Nat × Cursor) :=
  let (digits, stop) := cursor.takeWhile Char.isDigit
  if digits.isEmpty || 9 < digits.length then none
  else some (digits.foldl (fun number digit => number * 10 + (digit.toNat - 48)) 0, stop)

/-- The two numbers of a version directive. -/
def version? (cursor : Cursor) : Option (Token × Cursor) := do
  let (major, stop) ← number? (cursor.skipWhile isBlank)
  if !stop.isAt '.' then none
  let (minor, stop) ← number? (stop.skip 1)
  return (.version major minor, stop)

/-- The handle of a tag directive and what it stands for. -/
def tagHandle? (cursor : Cursor) : Option (Token × Cursor) := do
  let (handle, stop) ← handle? (cursor.skipWhile isBlank)
  if 1 < handle.length ∧ handle.getLast? ≠ some '!' then none
  if !stop.rest.head?.any isBlank then none
  let (bytes, stop) ← tagBytes? true (stop.skipWhile isBlank)
  if bytes.isEmpty ∨ !stop.gapAt 0 then none
  return (.tagHandle handle bytes, stop)

/-- The directive whose indicator is at a place and the place after its line. -/
def directive? (cursor : Cursor) : Option (Token × Cursor) := do
  let (name, stop) := (cursor.skip 1).takeWhile isNameChar
  if !stop.gapAt 0 then none
  let (token, stop) ←
    if name = "YAML".toList then version? stop
    else if name = "TAG".toList then tagHandle? stop
    else none
  let blanks := stop.skipWhile isBlank
  let stop := if blanks.isAt '#' then blanks.skipWhile (!isBreak ·) else blanks
  match stop.lineBreak? with
  | some (_, next) => return (token, next)
  | none => if stop.rest.isEmpty then return (token, stop) else none

end SourcePreview.Yaml.Property
