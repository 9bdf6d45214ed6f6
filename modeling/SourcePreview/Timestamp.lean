/-!
# Points in time

A point in time is a number of nanoseconds since the beginning of 1970, negative before it.
-/

namespace SourcePreview

/-- A point in time. -/
structure Timestamp where
  /-- Nanoseconds since the beginning of 1970. -/
  nanoseconds : Int
deriving DecidableEq, Repr, Inhabited

/-- The time between two points in time: whole seconds, and nanoseconds that are no whole one. -/
structure Duration where
  seconds : Nat
  nanoseconds : Nat
deriving DecidableEq, Repr

namespace Timestamp

instance : LE Timestamp := ⟨fun earlier later => earlier.nanoseconds ≤ later.nanoseconds⟩

instance : LT Timestamp := ⟨fun earlier later => earlier.nanoseconds < later.nanoseconds⟩

instance (earlier later : Timestamp) : Decidable (earlier ≤ later) :=
  inferInstanceAs (Decidable (earlier.nanoseconds ≤ later.nanoseconds))

instance (earlier later : Timestamp) : Decidable (earlier < later) :=
  inferInstanceAs (Decidable (earlier.nanoseconds < later.nanoseconds))

/-- Nanoseconds in a second. -/
def perSecond : Nat := 1000000000

/-- So many seconds after the beginning of 1970, and so many nanoseconds after that. -/
def ofSeconds (seconds : Int) (nanoseconds : Nat) : Timestamp :=
  ⟨seconds * perSecond + nanoseconds⟩

/-- Whole seconds since the beginning of 1970, rounded down. -/
def seconds (time : Timestamp) : Int :=
  time.nanoseconds.fdiv perSecond

/-- Nanoseconds since the last whole second. -/
def fraction (time : Timestamp) : Nat :=
  (time.nanoseconds.fmod perSecond).toNat

/-- How long a point in time comes after the beginning of 1970, or else how long before it. -/
def sinceEpoch (time : Timestamp) : Except Duration Duration :=
  if 0 ≤ time.seconds then .ok ⟨time.seconds.toNat, time.fraction⟩
  else if time.fraction = 0 then .error ⟨(-time.seconds).toNat, 0⟩
  else .error ⟨(-time.seconds - 1).toNat, perSecond - time.fraction⟩

end Timestamp

/-- The time between two points in time in nanoseconds. -/
def Duration.inNanoseconds (duration : Duration) : Nat :=
  duration.seconds * Timestamp.perSecond + duration.nanoseconds

end SourcePreview
