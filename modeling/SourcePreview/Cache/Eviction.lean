import SourcePreview.Path
import SourcePreview.Timestamp

/-!
# Choosing what to remove

A collection of entry files that has too many of them or too many bytes loses the oldest ones
until both bounds hold.  An entry that cannot be removed is passed over and goes on counting.
-/

namespace SourcePreview

/-- An entry file as a look at the directory shows it. -/
structure ScannedEntry where
  path : Path
  size : Nat
  /-- When the entry was last written or read. -/
  used : Timestamp
deriving DecidableEq, Repr

/-- How an attempt to remove an entry ends. -/
inductive Removal where
  | removed
  /-- Somebody else has removed the entry. -/
  | alreadyGone
  | failed
deriving DecidableEq, Repr

namespace Eviction

/-- The bounds on the number of entries and of their bytes. -/
structure Bounds where
  maxEntries : Nat
  maxBytes : Nat
deriving DecidableEq, Repr

/-- Whether so many entries with so many bytes are within bounds. -/
def Bounds.hold (bounds : Bounds) (count size : Nat) : Bool :=
  count ≤ bounds.maxEntries && size ≤ bounds.maxBytes

/-- The number of bytes of some entries. -/
def totalSize (entries : List ScannedEntry) : Nat :=
  entries.foldr (fun entry bytes => entry.size + bytes) 0

/-- The entries in the order of their last use, in the given order where that is the same. -/
def oldestFirst (entries : List ScannedEntry) : List ScannedEntry :=
  entries.mergeSort fun left right => decide (left.used ≤ right.used)

/-- Removes entries one after the other until so many entries with so many bytes are within
bounds.  The result is the number of entries that were removed. -/
def removeUntil {State : Type}
    (remove : Path → State → Removal × State)
    (bounds : Bounds) :
    (count size : Nat) → List ScannedEntry → State → Nat × State
  | _, _, [], state => (0, state)
  | count, size, entry :: entries, state =>
    if bounds.hold count size then (0, state)
    else
      match remove entry.path state with
      | (.removed, state) =>
        let (removed, state) :=
          removeUntil remove bounds (count - 1) (size - entry.size) entries state
        (removed + 1, state)
      | (.alreadyGone, state) =>
        removeUntil remove bounds (count - 1) (size - entry.size) entries state
      | (.failed, state) => removeUntil remove bounds count size entries state

/-- Removes the oldest entries until all that are left are within bounds.  The result is the
number of entries that were removed. -/
def evictOldest {State : Type}
    (remove : Path → State → Removal × State)
    (bounds : Bounds)
    (entries : List ScannedEntry)
    (state : State) : Nat × State :=
  removeUntil remove bounds entries.length (totalSize entries) (oldestFirst entries) state

end Eviction

end SourcePreview
