import SourcePreview.Pattern.Basic

/-!
# Scanning a text

Matches are looked for from left to right and do not overlap: after a match the search goes on
where the match ended.  A match that consumes nothing does not count, and the search goes on after
the next character.
-/

namespace SourcePreview

variable {α : Type}

/-- What is found from a place on, with at most so many tries; `find` gives what it finds at a
place and where the match ended. -/
def scanFrom
    (find : Cursor → Option (α × Cursor)) :
    (tries : Nat) → Cursor → List α
  | 0, _ => []
  | tries + 1, cursor =>
    match (find cursor).filter fun (_, after) => after.remaining < cursor.remaining with
    | some (found, after) => found :: scanFrom find tries after
    | none =>
      match cursor.next? with
      | some after => scanFrom find tries after
      | none => []

/-- What is found in a text, from left to right. -/
def scan (find : Cursor → Option (α × Cursor)) (text : List Char) : List α :=
  scanFrom find (text.length + 1) (Cursor.start text)

/-- How often a pattern matches in a text. -/
def Pattern.count (pattern : Pattern) (text : List Char) : Nat :=
  (scan (fun cursor => (pattern.end? cursor).map fun after => ((), after)) text).length

end SourcePreview
