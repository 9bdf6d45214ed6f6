import SourcePreview.Proofs.Cache.Decoding
import SourcePreview.Proofs.Json.Continuations

/-!
# Entries that are cut short

An entry of which the end is missing is corrupt wherever it is cut: before the version nothing tells
that it is an entry, and after the version its document has lost at least the brace that closes the
record, so that it spells nothing that could be a preview.
-/

namespace SourcePreview.Entry

/-- A number is no styled text. -/
theorem styledText?_number (spelling : Bytes) :
    Json.styledText? (.number spelling) = none :=
  rfl

/-- The record of a styled text is lost as soon as its end is missing. -/
theorem styledText?_of_strictPrefix
    {styled : StyledText} {document more : Bytes}
    (cut :
      (Json.ofMembers (Json.membersOfStyledText styled)).compact = document ++ more)
    (strict : more ≠ []) :
    (Json.parse? document).bind Json.styledText? = none := by
  cases reads : Json.parse? document with
  | none => rfl
  | some found =>
      obtain ⟨spelling, rfl⟩ :=
        Json.exists_number_of_compact_eq_append
          (Json.written_membersOfStyledText styled) cut strict reads
      exact styledText?_number spelling

/-- The parts of an entry that is cut after its version. -/
theorem eq_of_header_append_eq_encode
    {styled : StyledText} {first second third fourth : UInt8} {document more : Bytes}
    (whole :
      [0x47, 0x4C, 0x48, 0x4C, first, second, third, fourth] ++ document ++ more =
        encode styled) :
    [first, second, third, fourth] = versionBytes formatVersion ∧
      (Json.ofMembers (Json.membersOfStyledText styled)).compact = document ++ more := by
  have sameLength :
      [0x47, 0x4C, 0x48, 0x4C, first, second, third, fourth].length = header.length := rfl
  rw [encode, List.append_assoc] at whole
  obtain ⟨sameHeader, sameDocument⟩ := List.append_inj whole sameLength
  exact ⟨congrArg (List.drop 4) sameHeader, sameDocument.symm⟩

/-- A strict prefix of an entry is corrupt: it is neither read as a preview nor taken for an entry
of another version. -/
theorem decode_of_strictPrefix
    {styled : StyledText} {bytes : Bytes} (isPrefix : bytes <+: encode styled)
    (strict : bytes ≠ encode styled) :
    decode bytes = .error .corrupt := by
  obtain ⟨more, whole⟩ := isPrefix
  have missing : more ≠ [] := by
    rintro rfl
    exact strict (by rw [← whole, List.append_nil])
  rw [decode_eq_corrupt_iff]
  rintro version document ⟨first, second, third, fourth, rfl, rfl⟩
  obtain ⟨sameVersion, cut⟩ := eq_of_header_append_eq_encode whole
  have isCurrent : [first, second, third, fourth] = [1, 0, 0, 0] := sameVersion
  simp only [List.cons.injEq, and_true] at isCurrent
  obtain ⟨rfl, rfl, rfl, rfl⟩ := isCurrent
  refine ⟨rfl, ?_⟩
  intro found reads
  rw [styledText?_of_strictPrefix cut missing] at reads
  cases reads

/-- A preview of a string with a character of two bytes. -/
def sampleAccent : StyledText :=
  .highlighted .json "\"é\"" [⟨0, 3, .string⟩] .standard

/-- The entry of a preview is corrupt if it is cut inside a character of its text, and if only the
last brace is missing. -/
theorem decode_of_strictPrefix_sample :
    (encode sampleAccent).take 38 <+: encode sampleAccent ∧
      (encode sampleAccent).take 38 ≠ encode sampleAccent ∧
      decode ((encode sampleAccent).take 38) = .error .corrupt ∧
      decode (encode sampleAccent).dropLast = .error .corrupt := by
  have inside : (encode sampleAccent).take 38 ≠ encode sampleAccent := by decide +kernel
  have braceless : (encode sampleAccent).dropLast ≠ encode sampleAccent := by decide +kernel
  exact
    ⟨List.take_prefix _ _, inside, decode_of_strictPrefix (List.take_prefix _ _) inside,
      decode_of_strictPrefix (List.dropLast_prefix _) braceless⟩

end SourcePreview.Entry
