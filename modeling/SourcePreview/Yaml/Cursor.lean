import SourcePreview.Yaml.Character

/-!
# Places in a YAML document

A cursor stands between two characters of a document.  It knows what comes after it and how many
characters, lines and columns come before it.
-/

namespace SourcePreview.Yaml

/-- A place in a document. -/
structure Cursor where
  /-- What comes after the place. -/
  rest : List Char
  /-- How many characters come before the place. -/
  index : Nat
  /-- How many lines end before the place. -/
  line : Nat
  /-- How many characters of its line come before the place. -/
  column : Nat
deriving Repr

namespace Cursor

/-- The place at the beginning of a document. -/
def ofText (text : List Char) : Cursor :=
  ⟨text, 0, 0, 0⟩

/-- The place so many characters further on the same line. -/
def skip (cursor : Cursor) (count : Nat) : Cursor :=
  ⟨cursor.rest.drop count, cursor.index + count, cursor.line, cursor.column + count⟩

/-- The beginning of the next line, with so many characters and what follows them behind it. -/
def newLine (cursor : Cursor) (count : Nat) : Cursor :=
  ⟨cursor.rest.drop count, cursor.index + count, cursor.line + 1, 0⟩

/-- The characters of the same line that are of a class, and the place after them. -/
def takeWhile (cursor : Cursor) (isIn : Char → Bool) : List Char × Cursor :=
  let taken := cursor.rest.takeWhile isIn
  (taken, cursor.skip taken.length)

/-- The place after characters of the same line that are of a class. -/
def skipWhile (cursor : Cursor) (isIn : Char → Bool) : Cursor :=
  (cursor.takeWhile isIn).2

/-- The line break at a place and the beginning of the next line.  All breaks but the Unicode
separators count as line feeds. -/
def lineBreak? (cursor : Cursor) : Option (Char × Cursor) :=
  match cursor.rest with
  | '\r' :: '\n' :: _ => some ('\n', cursor.newLine 2)
  | character :: _ =>
    if character = '\u2028' ∨ character = '\u2029' then some (character, cursor.newLine 1)
    else if isBreak character then some ('\n', cursor.newLine 1)
    else none
  | [] => none

/-- Whether the next character is this one. -/
def isAt (cursor : Cursor) (character : Char) : Bool :=
  cursor.rest.head? == some character

/-- Whether there is white space or the end of the document so many characters further on. -/
def gapAt (cursor : Cursor) (count : Nat) : Bool :=
  startsGap (cursor.rest.drop count)

/-- Whether three hyphens or three dots stand on their own at the beginning of a line. -/
def isAtDocumentMark (cursor : Cursor) : Bool :=
  cursor.column == 0 && cursor.gapAt 3 &&
    (cursor.rest.take 3 == ['-', '-', '-'] || cursor.rest.take 3 == ['.', '.', '.'])

end Cursor

/-- White space between two words of a scalar. -/
structure Gap where
  /-- The blanks before the first line break, last first. -/
  blanks : List Char
  /-- Whether there is a line break, or an escaped one just before. -/
  broken : Bool
  /-- The first line break, unless it is escaped. -/
  first : Option Char
  /-- The other line breaks, last first. -/
  later : List Char
deriving Repr

namespace Gap

/-- No white space yet. -/
def none : Gap :=
  ⟨[], false, Option.none, []⟩

/-- No white space yet after an escaped line break. -/
def escapedBreak : Gap :=
  ⟨[], true, Option.none, []⟩

/-- What white space stands for, last character first.  A single line feed is a space and several
are one fewer. -/
def reversedText (gap : Gap) : List Char :=
  if gap.broken then
    match gap.first with
    | some '\n' => if gap.later.isEmpty then [' '] else gap.later
    | some other => gap.later ++ [other]
    | Option.none => gap.later
  else gap.blanks

/-- The white space at a place and the place after it.  A tab before the column `least` of a line
that is not the first one is no white space but an error; `rounds` bounds the characters. -/
def readFrom (least : Nat) : (rounds : Nat) → Gap → Cursor → Option (Gap × Cursor)
  | 0, gap, cursor => some (gap, cursor)
  | rounds + 1, gap, cursor =>
    match cursor.rest, cursor.lineBreak? with
    | _, some (character, next) =>
      if gap.broken then
        readFrom least rounds { gap with later := character :: gap.later } next
      else readFrom least rounds ⟨[], true, some character, []⟩ next
    | character :: _, Option.none =>
      if !isBlank character then some (gap, cursor)
      else if gap.broken then
        if character = '\t' ∧ cursor.column < least then Option.none
        else readFrom least rounds gap (cursor.skip 1)
      else readFrom least rounds { gap with blanks := character :: gap.blanks } (cursor.skip 1)
    | [], Option.none => some (gap, cursor)

/-- The white space at a place after what there is already, and the place after it. -/
def read? (least : Nat) (gap : Gap) (cursor : Cursor) : Option (Gap × Cursor) :=
  readFrom least (cursor.rest.length + 1) gap cursor

end Gap

end SourcePreview.Yaml
