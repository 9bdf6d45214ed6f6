/-!
# Sets of characters by their boundaries

A set of characters is kept as the ascending code points at which membership changes, starting
outside the set.  A character belongs to the set when the number of boundaries at or below its
code point is odd, and that number is found by bisection.
-/

namespace SourcePreview

/-- A set of characters, as the ascending code points at which membership changes. -/
structure CharSet where
  /-- The first code points of the alternating runs inside and outside the set. -/
  boundaries : Array Nat

namespace CharSet

/-- How many of the ascending `boundaries` are at most `point`, looked for between two indices
that enclose the answer; `fuel` bounds the number of halvings. -/
def bisect
    (boundaries : Array Nat) (point : Nat) :
    (fuel low high : Nat) → Nat
  | 0, low, _ => low
  | fuel + 1, low, high =>
    if low < high then
      let middle := (low + high) / 2
      if boundaries.getD middle 0 ≤ point then
        bisect boundaries point fuel (middle + 1) high
      else
        bisect boundaries point fuel low middle
    else low

/-- The number of boundaries at or below a code point. -/
def rank (set : CharSet) (point : Nat) : Nat :=
  bisect set.boundaries point set.boundaries.size 0 set.boundaries.size

/-- A character is inside after an odd number of changes. -/
def contains (set : CharSet) (character : Char) : Bool :=
  set.rank character.toNat % 2 == 1

end CharSet

end SourcePreview
