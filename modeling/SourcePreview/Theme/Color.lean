import SourcePreview.Text.Hex

/-!
# Colours

A colour has a red, a green, a blue and an alpha channel of eight bits each.  It is written as six
hexadecimal digits after a hash, and read from six or eight, two for each channel; a channel below
sixteen may also be written as a plus sign and one digit.
-/

namespace SourcePreview

/-- A colour. -/
structure Color where
  red : UInt8
  green : UInt8
  blue : UInt8
  /-- How much the colour covers; 255 covers all. -/
  alpha : UInt8
deriving DecidableEq, Repr, Inhabited

namespace Color

/-- A colour that covers all. -/
def solid (red green blue : UInt8) : Color :=
  ⟨red, green, blue, 255⟩

/-- The channel that two bytes spell: two digits, or a plus sign and one digit. -/
def channel? (high low : UInt8) : Option UInt8 :=
  Text.hexByte? [high, low]

/-- The colour that the bytes of a text without its leading hashes spell. -/
def ofDigits? : Bytes → Option Color
  | [r₁, r₂, g₁, g₂, b₁, b₂] => do
    let red ← channel? r₁ r₂
    let green ← channel? g₁ g₂
    let blue ← channel? b₁ b₂
    return solid red green blue
  | [r₁, r₂, g₁, g₂, b₁, b₂, a₁, a₂] => do
    let red ← channel? r₁ r₂
    let green ← channel? g₁ g₂
    let blue ← channel? b₁ b₂
    let alpha ← channel? a₁ a₂
    return ⟨red, green, blue, alpha⟩
  | _ => none

/-- The colour that a text spells, after any number of hashes. -/
def ofHex? (text : String) : Option Color :=
  ofDigits? (Text.encode (text.toList.dropWhile (· == '#')))

/-- A hash and six digits for the red, green and blue channels. -/
def toHex (color : Color) : String :=
  String.ofList
    ('#' :: Text.upperHex color.red ++ Text.upperHex color.green ++ Text.upperHex color.blue)

end Color

end SourcePreview
