/-!
# Characters of YAML documents

Classes of characters that the syntax of YAML documents is described by.
-/

namespace SourcePreview.Yaml

/-- Whether a character may occur in a document. -/
def isAllowed (character : Char) : Bool :=
  let point := character.toNat
  point == 0x09 || point == 0x0A || point == 0x0D || (0x20 ≤ point && point ≤ 0x7E) ||
    point == 0x85 || (0xA0 ≤ point && point ≤ 0xD7FF) || (0xE000 ≤ point && point ≤ 0xFFFD) ||
    0x10000 ≤ point

/-- Whether a character ends a line. -/
def isBreak (character : Char) : Bool :=
  character == '\n' || character == '\r' || character == '\u0085' || character == '\u2028' ||
    character == '\u2029'

/-- Whether a character is a space or a tab. -/
def isBlank (character : Char) : Bool :=
  character == ' ' || character == '\t'

/-- Whether a character is white space of either kind. -/
def isGap (character : Char) : Bool :=
  isBlank character || isBreak character

/-- Whether there is white space or nothing more. -/
def startsGap (characters : List Char) : Bool :=
  characters.head?.all isGap

/-- Whether a character may occur in the name of an anchor, a directive or a tag handle. -/
def isNameChar (character : Char) : Bool :=
  character.isAlphanum || character == '_' || character == '-'

end SourcePreview.Yaml
