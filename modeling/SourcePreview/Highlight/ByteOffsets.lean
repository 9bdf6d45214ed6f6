/-!
# From byte offsets to character indices

Tokens are found at UTF-8 byte offsets and reported at character indices.  For a text of ASCII
characters the two coincide; otherwise a table gives, for every byte of the text and for its end,
the index of the character that the byte belongs to.
-/

namespace SourcePreview

/-- The conversion from byte offsets to character indices for one text. -/
structure ByteOffsets where
  /-- The character index of every byte and of the end, unless all characters are ASCII. -/
  table : Option (Array Nat)

namespace ByteOffsets

/-- Appends the index of each character once per byte, and at the end the number of characters. -/
def fill : List Char → (index : Nat) → Array Nat → Array Nat
  | [], index, table => table.push index
  | character :: rest, index, table =>
    fill rest (index + 1) (table ++ Array.replicate character.utf8Size index)

/-- The conversion for a text. -/
def ofText (text : List Char) : ByteOffsets :=
  if text.all fun character => character.toNat < 128 then ⟨none⟩
  else ⟨some (fill text 0 #[])⟩

/-- The index of the character that starts at a byte offset. -/
def charIndex (offsets : ByteOffsets) (byte : Nat) : Nat :=
  match offsets.table with
  | none => byte
  | some table => table.getD byte 0

end ByteOffsets

end SourcePreview
