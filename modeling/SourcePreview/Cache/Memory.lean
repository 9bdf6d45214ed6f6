/-!
# The memory tier

A bounded table from keys to values that drops the least recently used entry when it is full.  An
entry is used when it is set and when it is found.
-/

namespace SourcePreview

/-- A bounded table. -/
structure MemoryTier (Key Value : Type) where
  /-- How many entries the table may hold. -/
  capacity : Nat
  /-- The entries, most recently used first. -/
  entries : List (Key × Value)
deriving Repr

namespace MemoryTier

variable {Key Value : Type} [DecidableEq Key]

/-- A table without entries, for the wanted number of entries but at least one. -/
def empty (wanted : Nat) : MemoryTier Key Value :=
  ⟨max wanted 1, []⟩

/-- The number of entries. -/
def size (tier : MemoryTier Key Value) : Nat :=
  tier.entries.length

/-- The value of a key, if there is one. -/
def find? (tier : MemoryTier Key Value) (key : Key) : Option Value :=
  tier.entries.lookup key

/-- Whether there is a value of a key. -/
def contains (tier : MemoryTier Key Value) (key : Key) : Bool :=
  (tier.find? key).isSome

/-- The entries of all keys but one. -/
def others (tier : MemoryTier Key Value) (key : Key) : List (Key × Value) :=
  tier.entries.filter fun entry => entry.1 ≠ key

/-- The table with the value of a key set, and the least recently used entry dropped if there
would be too many. -/
def set (tier : MemoryTier Key Value) (key : Key) (value : Value) : MemoryTier Key Value :=
  { tier with entries := ((key, value) :: tier.others key).take tier.capacity }

/-- The value of a key, if there is one, and the table after its use. -/
def get (tier : MemoryTier Key Value) (key : Key) : Option Value × MemoryTier Key Value :=
  match tier.find? key with
  | some value => (some value, { tier with entries := (key, value) :: tier.others key })
  | none => (none, tier)

/-- The table without its entries. -/
def clear (tier : MemoryTier Key Value) : MemoryTier Key Value :=
  { tier with entries := [] }

end MemoryTier

end SourcePreview
