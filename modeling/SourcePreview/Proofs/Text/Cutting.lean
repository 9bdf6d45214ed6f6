import SourcePreview.Text.Cut

/-!
# Cutting between characters

The byte offset behind the first characters of a text is a place to cut.  From there any number of
characters leads to such a place again, and the stretch between two of them is made of the
characters between.
-/

namespace SourcePreview.Text

theorem pos?_byteIdx {text : String} (place : text.Pos) :
    text.pos? ⟨place.offset.byteIdx⟩ = some place := by
  simp only [String.pos?, String.Slice.pos?]
  rw [dif_pos (by simpa using place.toSlice.isValidForSlice)]
  simp [String.Pos.ext_iff]

/-- The offset behind the beginning of a text is a place to cut. -/
theorem exists_pos?_of_eq_append
    {text passed rest : String} (parts : text = passed ++ rest) :
    ∃ place : text.Pos,
      text.pos? ⟨passed.utf8ByteSize⟩ = some place ∧ place.Splits passed rest := by
  have splits := String.Pos.splits_ofEqAppend parts
  have found := pos?_byteIdx (String.Pos.ofEqAppend parts)
  rw [splits.offset_eq_rawEndPos] at found
  exact ⟨_, found, splits⟩

/-- Offsets at which a text can be cut are those behind a beginning of it. -/
theorem isValid_of_eq_append
    {text passed rest : String} (parts : text = passed ++ rest) :
    String.Pos.Raw.IsValid text ⟨passed.utf8ByteSize⟩ :=
  String.Pos.Raw.isValid_iff_exists_append.mpr ⟨passed, rest, parts, rfl⟩

/-- Some characters on from a place to cut there is such a place again. -/
theorem byteAfter?_of_eq_append
    {text passed : String} {rest : List Char}
    (parts : text = passed ++ String.ofList rest) (count : Nat) :
    byteAfter? text passed.utf8ByteSize count =
      some (passed ++ String.ofList (rest.take count)).utf8ByteSize := by
  obtain ⟨place, found, splits⟩ := exists_pos?_of_eq_append parts
  have reached := (splits.nextn count).offset_eq_rawEndPos
  rw [String.toList_ofList] at reached
  rw [byteAfter?, found, Option.map_some, reached]
  rfl

/-- What lies between two places to cut is cut out. -/
theorem stretch?_of_eq_append
    {text passed stretch rest : String} (parts : text = passed ++ stretch ++ rest) :
    stretch? text passed.utf8ByteSize (passed ++ stretch).utf8ByteSize = some stretch := by
  obtain ⟨start, startFound, startSplits⟩ :=
    exists_pos?_of_eq_append (String.append_assoc ▸ parts)
  obtain ⟨stop, stopFound, stopSplits⟩ := exists_pos?_of_eq_append parts
  obtain ⟨ordered, cut⟩ :=
    String.copy_slice_eq_iff_splits.mpr ⟨passed, rest, startSplits, stopSplits⟩
  rw [stretch?, startFound, stopFound]
  simp only [Option.bind_eq_bind, Option.bind_some, String.slice?, dif_pos ordered]
  exact congrArg some cut

/-- A text has at least as many bytes as characters. -/
theorem length_le_utf8ByteSize (characters : List Char) :
    characters.length ≤ (String.ofList characters).utf8ByteSize := by
  induction characters with
  | nil => exact Nat.zero_le _
  | cons character rest ih =>
      have positive := Char.utf8Size_pos character
      rw [List.length_cons, String.ofList_cons, String.utf8ByteSize_append,
        String.utf8ByteSize_singleton]
      omega

end SourcePreview.Text
