import SourcePreview.Highlight.Rule

/-!
# Claimed stretches of a text

The stretches of a text that tokens have claimed so far.  A token is taken whole or not at all: it
is taken if it is not empty and shares no byte with a stretch that is already claimed.

The claimed stretches are kept in order and apart from each other, split at a place between two of
them that moves along with the tokens being claimed; tokens that come from left to right make it
move over each stretch once.
-/

namespace SourcePreview

/-- Claimed stretches, split at a place between two of them. -/
structure Claims where
  /-- The stretches before the split, the last one first. -/
  earlier : List Claim
  /-- The stretches after the split, the first one first. -/
  later : List Claim

namespace Claims

/-- Nothing is claimed. -/
def none : Claims := ⟨[], []⟩

/-- The claimed stretches in order. -/
def toList (claims : Claims) : List Claim :=
  claims.earlier.reverseAux claims.later

/-- Moves the split back over every stretch that ends after `place`. -/
def moveBack (place : Nat) : (earlier later : List Claim) → Claims
  | [], later => ⟨[], later⟩
  | claim :: earlier, later =>
    if claim.stop ≤ place then ⟨claim :: earlier, later⟩
    else moveBack place earlier (claim :: later)

/-- Moves the split forward over every stretch that ends by `place`. -/
def moveForward (place : Nat) : (later earlier : List Claim) → Claims
  | [], earlier => ⟨earlier, []⟩
  | claim :: later, earlier =>
    if claim.stop ≤ place then moveForward place later (claim :: earlier)
    else ⟨earlier, claim :: later⟩

/-- Moves the split so that exactly the stretches that end by `place` lie before it. -/
def seek (claims : Claims) (place : Nat) : Claims :=
  let back := moveBack place claims.earlier claims.later
  moveForward place back.later back.earlier

/-- Takes a stretch if it is not empty and meets none of the claimed ones. -/
def add (claims : Claims) (claim : Claim) : Claims :=
  if claim.start < claim.stop then
    let sought := claims.seek claim.start
    match sought.later with
    | [] => ⟨claim :: sought.earlier, []⟩
    | next :: _ =>
      if claim.stop ≤ next.start then ⟨claim :: sought.earlier, sought.later⟩
      else sought
  else claims

end Claims

end SourcePreview
