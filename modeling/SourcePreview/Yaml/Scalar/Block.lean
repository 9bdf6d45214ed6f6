import SourcePreview.Yaml.Cursor

/-!
# Block scalars

A block scalar is a header and lines that are indented.  In a literal one every line break stands
for itself, and in a folded one a single break between lines that start with no blank stands for a
space.  The header may fix the indentation and say what becomes of the line breaks at the end.
-/

namespace SourcePreview.Yaml.Block

/-- What becomes of the line breaks at the end of a block scalar. -/
inductive Chomping where
  /-- They are dropped. -/
  | strip
  /-- The first one is kept. -/
  | clip
  /-- They are all kept. -/
  | keep
deriving DecidableEq, Repr

/-- What a header says. -/
structure Header where
  chomping : Chomping
  /-- The indentation relative to the block around, if it is given. -/
  indentation : Option Nat
deriving Repr

/-- A sign for the line breaks at the end, if there is one. -/
def chomping? : List Char → Option (Chomping × List Char)
  | '+' :: rest => some (.keep, rest)
  | '-' :: rest => some (.strip, rest)
  | _ => none

/-- A digit for the indentation, if there is one. -/
def indentation? : List Char → Option (Nat × List Char)
  | digit :: rest => if digit.isDigit then some (digit.toNat - 48, rest) else none
  | [] => none

/-- The header with its parts in either order and what comes after them. -/
def header (characters : List Char) : Header × List Char :=
  match chomping? characters with
  | some (chomping, rest) =>
    match indentation? rest with
    | some (indentation, rest) => (⟨chomping, some indentation⟩, rest)
    | none => (⟨chomping, none⟩, rest)
  | none =>
    match indentation? characters with
    | some (indentation, rest) =>
      match chomping? rest with
      | some (chomping, rest) => (⟨chomping, some indentation⟩, rest)
      | none => (⟨.clip, some indentation⟩, rest)
    | none => (⟨.clip, none⟩, characters)

/-- The header after the indicator of a block scalar and the beginning of the next line. -/
def readHeader? (cursor : Cursor) : Option (Header × Cursor) := do
  let (header, rest) := header cursor.rest
  if header.indentation = some 0 then none
  let blanks := (cursor.skip (cursor.rest.length - rest.length)).skipWhile isBlank
  let stop := if blanks.isAt '#' then blanks.skipWhile (!isBreak ·) else blanks
  match stop.lineBreak? with
  | some (_, next) => return (header, next)
  | none => if stop.rest.isEmpty then return (header, stop) else none

/-- Empty lines between the lines of a block scalar. -/
structure EmptyLines where
  /-- Their line breaks, last first. -/
  breaks : List Char
  /-- The greatest column that their spaces reach. -/
  deepest : Nat
  cursor : Cursor

/-- Reads empty lines and the indentation of the next line, up to the given indentation if there
is one.  A tab in the indentation is an error, and `rounds` bounds the lines. -/
def readEmptyLines (indentation : Option Nat) : (rounds : Nat) → EmptyLines → Option EmptyLines
  | 0, lines => some lines
  | rounds + 1, lines =>
    let spaces := (lines.cursor.rest.takeWhile (· == ' ')).length
    let wanted := indentation.elim spaces fun column => column - lines.cursor.column
    let cursor := lines.cursor.skip (min spaces wanted)
    let deepest := max lines.deepest cursor.column
    if cursor.isAt '\t' && indentation.all fun column => cursor.column < column then none
    else
      match cursor.lineBreak? with
      | some (character, next) =>
        readEmptyLines indentation rounds ⟨character :: lines.breaks, deepest, next⟩
      | none => some ⟨lines.breaks, deepest, cursor⟩

/-- The empty lines at a place. -/
def emptyLines? (indentation : Option Nat) (cursor : Cursor) : Option EmptyLines :=
  readEmptyLines indentation (cursor.rest.length + 1) ⟨[], 0, cursor⟩

/-- A block scalar as far as it is read. -/
structure Reading where
  /-- The characters, last first, without the breaks after the last line. -/
  reversed : List Char
  /-- The break that ended the last line. -/
  lineBreak : Option Char
  /-- Whether the last line started with a blank. -/
  blank : Bool
  /-- The empty lines after the last line. -/
  lines : EmptyLines

/-- What the breaks between two lines stand for, last character first. -/
def between (folded : Bool) (reading : Reading) (nextBlank : Bool) : List Char :=
  if folded && reading.lineBreak == some '\n' && !reading.blank && !nextBlank then
    if reading.lines.breaks.isEmpty then [' '] else reading.lines.breaks
  else reading.lines.breaks ++ reading.lineBreak.toList

/-- Reads line after line at an indentation; `rounds` bounds the lines. -/
def readLines (folded : Bool) (indentation : Nat) : (rounds : Nat) → Reading → Option Reading
  | 0, reading => some reading
  | rounds + 1, reading =>
    let cursor := reading.lines.cursor
    if cursor.column ≠ indentation ∨ cursor.rest.isEmpty then some reading
    else
      let blank := cursor.rest.head?.any isBlank
      let (line, stop) := cursor.takeWhile (!isBreak ·)
      let reversed := line.reverse ++ (between folded reading blank ++ reading.reversed)
      let (lineBreak, next) :=
        match stop.lineBreak? with
        | some (character, next) => (some character, next)
        | none => (none, stop)
      match emptyLines? (some indentation) next with
      | some lines => readLines folded indentation rounds ⟨reversed, lineBreak, blank, lines⟩
      | none => none

/-- The breaks at the end of a block scalar that are kept, last first. -/
def keptBreaks (chomping : Chomping) (reading : Reading) : List Char :=
  match chomping with
  | .strip => []
  | .clip => reading.lineBreak.toList
  | .keep => reading.lines.breaks ++ reading.lineBreak.toList

/-- The block scalar whose indicator is at a place, and the place after it.  The block around
starts at the column `outer`, if there is one. -/
def read? (folded : Bool) (outer : Option Nat) (cursor : Cursor) :
    Option (String × Cursor) := do
  let (header, cursor) ← readHeader? (cursor.skip 1)
  let wanted := header.indentation.map fun indentation => outer.getD 0 + indentation
  let lines ← emptyLines? wanted cursor
  let least := outer.elim 1 (· + 1)
  let indentation := wanted.getD (max lines.deepest least)
  let reading ←
    readLines folded indentation (cursor.rest.length + 1) ⟨[], none, false, lines⟩
  let reversed := keptBreaks header.chomping reading ++ reading.reversed
  return (String.ofList reversed.reverse, reading.lines.cursor)

end SourcePreview.Yaml.Block
