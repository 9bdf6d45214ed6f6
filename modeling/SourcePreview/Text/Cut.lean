/-!
# Cutting a text at byte offsets

A text is cut between characters.  A byte offset inside a character is no place to cut, nor is one
past the end.
-/

namespace SourcePreview.Text

/-- The byte offset that so many characters lead to from a byte offset on, at most that of the end;
nothing if the way starts inside a character. -/
def byteAfter? (text : String) (byte count : Nat) : Option Nat :=
  (text.pos? ⟨byte⟩).map fun start => (start.nextn count).offset.byteIdx

/-- The stretch of a text between two byte offsets; nothing if the second is before the first or
one of them is inside a character. -/
def stretch? (text : String) (first last : Nat) : Option String := do
  let start ← text.pos? ⟨first⟩
  let stop ← text.pos? ⟨last⟩
  let stretch ← text.slice? start stop
  return stretch.copy

/-- The last byte offset at which a text can be cut, going back from a given one; nothing if it can
be cut nowhere on the way, not even at its beginning. -/
def lastCut? (text : String) : (byte : Nat) → Option Nat
  | 0 => if (text.pos? ⟨0⟩).isSome then some 0 else none
  | byte + 1 => if (text.pos? ⟨byte + 1⟩).isSome then some (byte + 1) else lastCut? text byte

/-- The beginning of a text up to the last place to cut it within so many bytes; all of it if it has
no more of them. -/
def beginning? (most : Nat) (text : String) : Option String :=
  if text.utf8ByteSize ≤ most then some text
  else (lastCut? text most).bind (stretch? text 0)

theorem byteIdx_of_pos?
    {text : String} {byte : Nat} {place : text.Pos}
    (found : text.pos? ⟨byte⟩ = some place) :
    place.offset.byteIdx = byte := by
  simp only [String.pos?, String.Slice.pos?, Option.map_eq_some_iff] at found
  obtain ⟨_, found, rfl⟩ := found
  split at found
  · cases found
    rfl
  · cases found

theorem le_nextn {text : String} (place : text.Pos) (count : Nat) : place ≤ place.nextn count := by
  rw [place.splits.le_iff_exists_eq_append (place.splits.nextn count)]
  exact ⟨_, rfl, by simp [← String.ofList_append]⟩

theorem lt_nextn
    {text : String} {place : text.Pos} {count : Nat}
    (before : place.offset.byteIdx < text.utf8ByteSize) (positive : 0 < count) :
    place < place.nextn count := by
  have inside : place ≠ text.endPos := by
    rintro rfl
    simp at before
  obtain ⟨count, rfl⟩ := Nat.exists_eq_add_one.mpr positive
  rw [String.Pos.nextn_add_one, dif_neg inside]
  exact String.Pos.lt_of_lt_of_le String.Pos.lt_next (le_nextn _ count)

/-- A way along characters does not lead back. -/
theorem le_of_byteAfter?
    {text : String} {byte count after : Nat}
    (leads : byteAfter? text byte count = some after) :
    byte ≤ after := by
  obtain ⟨place, found, rfl⟩ := Option.map_eq_some_iff.mp leads
  exact byteIdx_of_pos? found ▸ String.Pos.le_iff.mp (le_nextn place count)

/-- A way along at least one character leads on, unless it starts at the end. -/
theorem lt_of_byteAfter?
    {text : String} {byte count after : Nat}
    (before : byte < text.utf8ByteSize) (positive : 0 < count)
    (leads : byteAfter? text byte count = some after) :
    byte < after := by
  obtain ⟨place, found, rfl⟩ := Option.map_eq_some_iff.mp leads
  have start := byteIdx_of_pos? found
  exact start ▸ String.Pos.lt_iff.mp (lt_nextn (start ▸ before) positive)

end SourcePreview.Text
