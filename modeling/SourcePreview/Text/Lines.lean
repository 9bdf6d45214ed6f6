/-!
# Lines

A line ends with a line feed, which is not part of it, nor is a carriage return just before it.
What follows the last line feed is a line only if it is not empty.
-/

namespace SourcePreview.Text

/-- A finished line from its characters, last first, without a carriage return at its end. -/
def finishedLine : (reversed : List Char) → List Char
  | '\r' :: rest => rest.reverse
  | reversed => reversed.reverse

/-- The lines of a text; `current` is the line being read, last character first. -/
def linesFrom (current : List Char) : List Char → List (List Char)
  | [] => if current.isEmpty then [] else [current.reverse]
  | character :: rest =>
    if character = '\n' then finishedLine current :: linesFrom [] rest
    else linesFrom (character :: current) rest

/-- The lines of a text. -/
def lines (text : List Char) : List (List Char) :=
  linesFrom [] text

/-- The number of lines of a text, the last one counted if it is not empty; `begun` says whether
a line has begun. -/
def countLinesFrom (begun : Bool) (count : Nat) : List Char → Nat
  | [] => if begun then count + 1 else count
  | character :: rest =>
    if character = '\n' then countLinesFrom false (count + 1) rest
    else countLinesFrom true count rest

/-- The number of lines of a text. -/
def countLines (text : List Char) : Nat :=
  countLinesFrom false 0 text


end SourcePreview.Text
