import SourcePreview.Text.Hex
import SourcePreview.Yaml.Resolve

/-!
# Printing YAML documents

A record is printed with a line for each field and two more spaces of indentation for a record
inside.  A text is printed plain if it would be read back so, as a literal scalar if it has line
feeds, and otherwise in single quotes, or in double quotes where only escapes will do.
-/

namespace SourcePreview.Yaml

/-- What a field is printed as. -/
inductive Value where
  /-- A number or truth value by its spelling. -/
  | word (spelling : String)
  | text (value : String)
  | record (members : List (String × Value))

namespace Value

/-- Whether a character can be written without an escape. -/
def isPrintable (character : Char) : Bool :=
  let point := character.toNat
  point == 0x0A || (0x20 ≤ point && point ≤ 0x7E) || (0xA0 ≤ point && point ≤ 0xD7FF) ||
    (0xE000 ≤ point && point ≤ 0xFFFD && point != 0xFEFF) || 0x10000 ≤ point

/-- Whether a character of one class is followed by one of another. -/
def hasPair (isFirst isSecond : Char → Bool) : List Char → Bool
  | first :: second :: rest =>
    (isFirst first && isSecond second) || hasPair isFirst isSecond (second :: rest)
  | _ => false

/-- Whether a colon comes before white space or the end. -/
def hasKeyColon : List Char → Bool
  | [] => false
  | character :: rest => (character == ':' && startsGap rest) || hasKeyColon rest

/-- Whether the first character would be taken for an indicator. -/
def startsIndicator : List Char → Bool
  | [] => false
  | character :: rest =>
    "#,[]\x7b\x7d&*!|>'\"%@`".contains character ||
      ((character == '?' || character == '-') && startsGap rest)

/-- Whether a text would be taken for something else if it were not quoted. -/
def hasIndicator (text : List Char) : Bool :=
  text.take 3 == ['-', '-', '-'] || text.take 3 == ['.', '.', '.'] || startsIndicator text ||
    hasKeyColon text || hasPair isGap (· == '#') text

/-- Whether a text starts or ends with a space. -/
def isSpaced (text : List Char) : Bool :=
  text.head? == some ' ' || text.getLast? == some ' '

/-- Whether a text can only be written with escapes. -/
def needsEscapes (text : List Char) : Bool :=
  text.any (!isPrintable ·) || hasPair (· == ' ') isBreak text

/-- Whether a text can be written without quotes. -/
def allowsPlain (text : List Char) : Bool :=
  !needsEscapes text && !text.any isBreak && !isSpaced text && !hasIndicator text

/-- Whether a text can be written in single quotes. -/
def allowsSingleQuotes (text : List Char) : Bool :=
  !needsEscapes text && !hasPair isBreak (· == ' ') text

/-- Whether a text can be written as a block. -/
def allowsBlock (text : List Char) : Bool :=
  !needsEscapes text && text.getLast? != some ' '

/-- How a text is written. -/
def styleOf (text : String) : ScalarStyle :=
  let characters := text.toList
  if characters.contains '\n' then
    if allowsBlock characters then .literal else .doubleQuoted
  else if !isAmbiguous text && allowsPlain characters then .plain
  else if allowsSingleQuotes characters then .singleQuoted
  else .doubleQuoted

/-- So many spaces. -/
def spaces (count : Nat) : List Char :=
  List.replicate count ' '

/-- The digits of a number in base sixteen, at least so many. -/
def hexPadded (count number : Nat) : List Char :=
  let digits := (Nat.toDigits 16 number).map Char.toUpper
  List.replicate (count - digits.length) '0' ++ digits

/-- A character as it is written between double quotes. -/
def escapeChar (character : Char) : List Char :=
  match character with
  | '\x00' => ['\\', '0']
  | '\x07' => ['\\', 'a']
  | '\x08' => ['\\', 'b']
  | '\t' => ['\\', 't']
  | '\n' => ['\\', 'n']
  | '\x0b' => ['\\', 'v']
  | '\x0c' => ['\\', 'f']
  | '\r' => ['\\', 'r']
  | '\x1b' => ['\\', 'e']
  | '"' => ['\\', '"']
  | '\\' => ['\\', '\\']
  | '\u0085' => ['\\', 'N']
  | '\u2028' => ['\\', 'L']
  | '\u2029' => ['\\', 'P']
  | other =>
    if isPrintable other then [other]
    else if other.toNat ≤ 0xFF then '\\' :: 'x' :: hexPadded 2 other.toNat
    else '\\' :: 'u' :: hexPadded 4 other.toNat

/-- A text between double quotes. -/
def doubleQuoted (text : List Char) : List Char :=
  '"' :: text.flatMap escapeChar ++ ['"']

/-- What comes between the single quotes around a text.  Quotes are written twice, and the first
character and the closing quote after line breaks are indented. -/
def singleQuotedFrom (indentation : Nat) : (broken : Bool) → List Char → List Char
  | broken, [] => if broken then spaces indentation else []
  | broken, character :: rest =>
    if isBreak character then character :: singleQuotedFrom indentation true rest
    else
      (if broken then spaces indentation else []) ++
        (if character = '\'' then ['\'', '\''] else [character]) ++
        singleQuotedFrom indentation false rest

/-- A text between single quotes. -/
def singleQuoted (indentation : Nat) (text : List Char) : List Char :=
  '\'' :: singleQuotedFrom indentation false text ++ ['\'']

/-- The sign that says what becomes of the line breaks at the end of a block. -/
def chompingSign (text : List Char) : List Char :=
  match text.reverse with
  | [] => ['-']
  | last :: before =>
    if !isBreak last then ['-']
    else if before.head?.all isBreak then ['+']
    else []

/-- The lines of a block, each indented unless it is empty. -/
def blockLinesFrom (indentation : Nat) : (broken : Bool) → List Char → List Char
  | broken, [] => if broken then [] else ['\n']
  | broken, character :: rest =>
    if isBreak character then character :: blockLinesFrom indentation true rest
    else
      (if broken then spaces indentation else []) ++
        character :: blockLinesFrom indentation false rest

/-- A text as a literal block.  Its indentation is given where the text does not show it. -/
def literalBlock (indentation : Nat) (text : List Char) : List Char :=
  let shown := !text.head?.any fun first => first == ' ' || isBreak first
  '|' :: (if shown then [] else ['2']) ++ chompingSign text ++
    '\n' :: blockLinesFrom indentation true text

/-- A text as it is written after the colon of a field, with the end of its last line. -/
def printText (indentation : Nat) (text : String) : List Char :=
  let characters := text.toList
  match styleOf text with
  | .literal => literalBlock indentation characters
  | .plain => characters ++ ['\n']
  | .singleQuoted => singleQuoted indentation characters ++ ['\n']
  | _ => doubleQuoted characters ++ ['\n']

mutual

/-- A value as it is printed after the colon of a field at a level of indentation. -/
def print (level : Nat) : Value → List Char
  | .word spelling => ' ' :: spelling.toList ++ ['\n']
  | .text value => ' ' :: printText (level + 2) value
  | .record members => '\n' :: printMembers (level + 2) members

/-- The fields of a record on lines of their own. -/
def printMembers (level : Nat) : List (String × Value) → List Char
  | [] => []
  | (name, value) :: members =>
    spaces level ++ name.toList ++ ':' :: print level value ++ printMembers level members

end

end Value

/-- A record as a document. -/
def printRecord (members : List (String × Value)) : String :=
  String.ofList (Value.printMembers 0 members)

end SourcePreview.Yaml
