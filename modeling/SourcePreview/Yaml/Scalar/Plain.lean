import SourcePreview.Yaml.Cursor

/-!
# Plain scalars

A plain scalar has no quotes.  It goes on, over several lines if these are indented enough, up to
a colon before white space, a comment, or in flow context a bracket, a brace or a comma.
-/

namespace SourcePreview.Yaml.Plain

/-- Whether a character ends a plain scalar in flow context. -/
def isFlowIndicator (character : Char) : Bool :=
  character == ',' || character == '[' || character == ']' || character == '{' ||
    character == '}'

/-- The characters of a scalar up to white space or its end.  In flow context a colon must not
come just before a question mark or an indicator. -/
def word? (inFlow : Bool) : List Char → Option (List Char)
  | [] => some []
  | character :: rest =>
    if isGap character then some []
    else if inFlow && character == ':' &&
        rest.head?.any fun next => next == '?' || isFlowIndicator next then none
    else if character == ':' && startsGap rest then some []
    else if inFlow && isFlowIndicator character then some []
    else (word? inFlow rest).map (character :: ·)

/-- A plain scalar as far as it is read. -/
structure Reading where
  /-- The characters, last first. -/
  reversed : List Char
  /-- The white space that follows them. -/
  gap : Gap
  cursor : Cursor

/-- Reads word after word; on every line but the first they must start at the column `least` or
later, unless in flow context, and `rounds` bounds their number. -/
def readWords (inFlow : Bool) (least : Nat) : (rounds : Nat) → Reading → Option Reading
  | 0, reading => some reading
  | rounds + 1, reading =>
    if reading.cursor.isAtDocumentMark || reading.cursor.isAt '#' then some reading
    else
      match word? inFlow reading.cursor.rest with
      | none => none
      | some [] => some reading
      | some word =>
        let reversed := word.reverse ++ (reading.gap.reversedText ++ reading.reversed)
        match Gap.none.read? least (reading.cursor.skip word.length) with
        | none => none
        | some (gap, cursor) =>
          let next : Reading := ⟨reversed, gap, cursor⟩
          if !gap.broken && gap.blanks.isEmpty then some next
          else if !inFlow && cursor.column < least then some next
          else readWords inFlow least rounds next

/-- The plain scalar at a place, whether a line break follows it, and the place after its white
space. -/
def read? (inFlow : Bool) (least : Nat) (cursor : Cursor) : Option (String × Bool × Cursor) :=
  (readWords inFlow least (cursor.rest.length + 1) ⟨[], Gap.none, cursor⟩).map fun reading =>
    (String.ofList reading.reversed.reverse, reading.gap.broken, reading.cursor)

end SourcePreview.Yaml.Plain
