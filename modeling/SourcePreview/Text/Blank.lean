/-!
# Blank characters

The characters with the Unicode property White_Space, and the ways of cutting a text at them.
-/

namespace SourcePreview.Text

/-- Whether a character is white space in the sense of Unicode. -/
def isBlank (character : Char) : Bool :=
  let point := character.toNat
  (9 ≤ point && point ≤ 13) || point == 32 || point == 0x85 || point == 0xA0 ||
    point == 0x1680 || (0x2000 ≤ point && point ≤ 0x200A) || point == 0x2028 ||
    point == 0x2029 || point == 0x202F || point == 0x205F || point == 0x3000

/-- The characters without the blank ones at either end. -/
def trimBlank (characters : List Char) : List Char :=
  ((characters.dropWhile isBlank).reverse.dropWhile isBlank).reverse

/-- The maximal runs of characters that are not blank; `current` is the run being read, last
character first. -/
def wordsFrom (current : List Char) : List Char → List (List Char)
  | [] => if current.isEmpty then [] else [current.reverse]
  | character :: rest =>
    if isBlank character then
      if current.isEmpty then wordsFrom [] rest
      else current.reverse :: wordsFrom [] rest
    else wordsFrom (character :: current) rest

/-- The maximal runs of characters that are not blank, in order. -/
def blankSeparatedWords (characters : List Char) : List (List Char) :=
  wordsFrom [] characters

end SourcePreview.Text
