import SourcePreview.Proofs.Cache.Entry
import SourcePreview.Proofs.Cache.FiniteMap
import SourcePreview.Proofs.Spans

/-!
# Decoding arbitrary bytes

Whatever a file in the directory of the cache contains, the four letters and the version in front of
it decide how it is read: another version is told apart before anything that follows is looked at,
and only a document with spans in order that follows the current version is read as an entry.  So
every preview that comes out of the directory has spans in order, even if another program wrote it.
-/

namespace SourcePreview

namespace Entry

/-- Whether bytes are the letters of an entry, a version in four bytes, low bytes first, and a
document. -/
def HasHeader (bytes : Bytes) (version : Nat) (document : Bytes) : Prop :=
  ∃ first second third fourth : UInt8,
    bytes = [0x47, 0x4C, 0x48, 0x4C, first, second, third, fourth] ++ document ∧
      version =
        first.toNat + 2 ^ 8 * second.toNat + 2 ^ 16 * third.toNat + 2 ^ 24 * fourth.toNat

/-- Bytes with the letters and room for a version have a header. -/
theorem exists_hasHeader
    {bytes : Bytes} (long : header.length ≤ bytes.length)
    (letters : bytes.take magic.length = magic) :
    ∃ version document, HasHeader bytes version document := by
  match bytes, long, letters with
  | g :: l :: h :: m :: first :: second :: third :: fourth :: document, _, letters =>
      have same : [g, l, h, m] = [0x47, 0x4C, 0x48, 0x4C] := letters
      simp only [List.cons.injEq, and_true] at same
      obtain ⟨rfl, rfl, rfl, rfl⟩ := same
      exact ⟨_, document, first, second, third, fourth, rfl, rfl⟩

/-- Bytes have at most one header. -/
theorem HasHeader.unique
    {bytes document other : Bytes} {version otherVersion : Nat}
    (has : HasHeader bytes version document)
    (hasOther : HasHeader bytes otherVersion other) :
    version = otherVersion ∧ document = other := by
  obtain ⟨first, second, third, fourth, rfl, rfl⟩ := has
  obtain ⟨_, _, _, _, same, rfl⟩ := hasOther
  simp only [List.cons_append, List.nil_append, List.cons.injEq, true_and] at same
  obtain ⟨rfl, rfl, rfl, rfl, rfl⟩ := same
  exact ⟨rfl, rfl⟩

/-- Bytes without a header are corrupt. -/
theorem decode_of_not_hasHeader
    {bytes : Bytes} (without : ∀ version document, ¬HasHeader bytes version document) :
    decode bytes = .error .corrupt := by
  rw [decode, if_pos]
  by_contra neither
  rw [not_or] at neither
  have long : header.length ≤ bytes.length := Nat.le_of_not_lt neither.1
  obtain ⟨version, document, has⟩ := exists_hasHeader long (not_not.mp neither.2)
  exact without version document has

/-- A header decides how the document is read. -/
theorem decode_of_hasHeader
    {bytes document : Bytes} {version : Nat} (has : HasHeader bytes version document) :
    decode bytes =
      if version ≠ formatVersion then .error (.otherVersion version)
      else
        match (Json.parse? document).bind Json.styledText? with
        | some styled => if styled.isWellFormed then .ok styled else .error .corrupt
        | none => .error .corrupt := by
  obtain ⟨first, second, third, fourth, rfl, rfl⟩ := has
  have value :
      versionOf [first, second, third, fourth] =
        first.toNat + 2 ^ 8 * second.toNat + 2 ^ 16 * third.toNat +
          2 ^ 24 * fourth.toNat := by
    simp only [versionOf, List.foldr_cons, List.foldr_nil]
    omega
  have long :
      ¬([0x47, 0x4C, 0x48, 0x4C, first, second, third, fourth] ++ document).length <
        header.length := by
    rw [List.length_append]
    exact Nat.not_lt.mpr (Nat.le_add_right 8 document.length)
  rw [← value, decode, if_neg]
  · rfl
  · rintro (short | otherLetters)
    · exact long short
    · exact otherLetters rfl

/-- With another version nothing else matters. -/
theorem decode_eq_otherVersion_iff {bytes : Bytes} {version : Nat} :
    decode bytes = .error (.otherVersion version) ↔
      version ≠ 1 ∧ ∃ document, HasHeader bytes version document := by
  constructor
  · intro refused
    by_cases header : ∃ found document, HasHeader bytes found document
    · obtain ⟨found, document, has⟩ := header
      rw [decode_of_hasHeader has] at refused
      split at refused
      · next other =>
          cases refused
          exact ⟨other, document, has⟩
      · repeat' split at refused
        all_goals cases refused
    · have without := fun found document has => header ⟨found, document, has⟩
      rw [decode_of_not_hasHeader without] at refused
      cases refused
  · rintro ⟨other, document, has⟩
    rw [decode_of_hasHeader has]
    exact if_pos other

/-- Only a document of the current version whose spans are in order is read. -/
theorem decode_eq_ok_iff {bytes : Bytes} {styled : StyledText} :
    decode bytes = .ok styled ↔
      ∃ document,
        HasHeader bytes 1 document ∧
          (Json.parse? document).bind Json.styledText? = some styled ∧
            Span.AreOrdered styled.text.length styled.spans := by
  constructor
  · intro read
    by_cases header : ∃ version document, HasHeader bytes version document
    · obtain ⟨version, document, has⟩ := header
      rw [decode_of_hasHeader has] at read
      split at read
      · cases read
      · next current =>
          obtain rfl : version = 1 := not_not.mp current
          split at read
          · next found parses =>
              split at read
              · next wellFormed =>
                  cases read
                  exact ⟨document, has, parses, StyledText.isWellFormed_iff.mp wellFormed⟩
              · cases read
          · cases read
    · have without := fun version document has => header ⟨version, document, has⟩
      rw [decode_of_not_hasHeader without] at read
      cases read
  · rintro ⟨document, has, parses, ordered⟩
    have wellFormed := StyledText.isWellFormed_iff.mpr ordered
    have current : ¬1 ≠ formatVersion := not_not.mpr rfl
    rw [decode_of_hasHeader has, if_neg current, parses]
    exact if_pos wellFormed

/-- Everything else is corrupt. -/
theorem decode_eq_corrupt_iff {bytes : Bytes} :
    decode bytes = .error .corrupt ↔
      ∀ version document,
        HasHeader bytes version document →
          version = 1 ∧
            ∀ styled,
              (Json.parse? document).bind Json.styledText? = some styled →
                ¬Span.AreOrdered styled.text.length styled.spans := by
  constructor
  · intro corrupt version document has
    have current : version = 1 := by
      by_contra other
      have refused := decode_eq_otherVersion_iff.mpr ⟨other, document, has⟩
      rw [corrupt] at refused
      cases refused
    refine ⟨current, fun styled parses ordered => ?_⟩
    have read := decode_eq_ok_iff.mpr ⟨document, current ▸ has, parses, ordered⟩
    rw [corrupt] at read
    cases read
  · intro neither
    cases read : decode bytes with
    | ok styled =>
        obtain ⟨document, has, parses, ordered⟩ := decode_eq_ok_iff.mp read
        exact absurd ordered ((neither 1 document has).2 styled parses)
    | error failure =>
        cases failure with
        | corrupt => rfl
        | otherVersion version =>
            obtain ⟨other, document, has⟩ := decode_eq_otherVersion_iff.mp read
            exact absurd (neither version document has).1 other

end Entry

namespace DiskTier

/-- What a file is read as is what its bytes are decoded as. -/
theorem areOrdered_of_getByName
    {tier : DiskTier} {tree : FileTree} {name : String} {styled : StyledText}
    (found : (tier.getByName tree name).2 = some styled) :
    Span.AreOrdered styled.text.length styled.spans := by
  have decoded : ∃ bytes, Entry.decode bytes = .ok styled := by
    unfold getByName find at found
    dsimp only at found
    split at found
    · next path _ =>
        have reads : readEntry tree path = ((readEntry tree path).1, some styled) :=
          Prod.ext rfl found
        obtain ⟨file, _, decodes, _⟩ := exists_of_readEntry_eq_some reads
        exact ⟨file.bytes, decodes⟩
    · cases found
  obtain ⟨bytes, decodes⟩ := decoded
  obtain ⟨_, _, _, ordered⟩ := Entry.decode_eq_ok_iff.mp decodes
  exact ordered

/-- All bytes are read by their header: another version is refused as such whatever follows, an
entry is a document of the current version with spans in order, and everything else is corrupt.  So
whatever is in the directory, every preview that is found there has its spans in order. -/
theorem decode_and_getByName_areOrdered :
    (∀ bytes version,
      Entry.decode bytes = .error (.otherVersion version) ↔
        version ≠ 1 ∧ ∃ document, Entry.HasHeader bytes version document) ∧
    (∀ bytes styled,
      Entry.decode bytes = .ok styled ↔
        ∃ document,
          Entry.HasHeader bytes 1 document ∧
            (Json.parse? document).bind Json.styledText? = some styled ∧
              Span.AreOrdered styled.text.length styled.spans) ∧
    (∀ bytes,
      Entry.decode bytes = .error .corrupt ↔
        ∀ version document,
          Entry.HasHeader bytes version document →
            version = 1 ∧
              ∀ styled,
                (Json.parse? document).bind Json.styledText? = some styled →
                  ¬Span.AreOrdered styled.text.length styled.spans) ∧
    (∀ (tier : DiskTier) tree name styled,
      (tier.getByName tree name).2 = some styled →
        Span.AreOrdered styled.text.length styled.spans) ∧
    ∀ (tier : DiskTier) tree key styled,
      (tier.get tree key).2 = some styled →
        Span.AreOrdered styled.text.length styled.spans := by
  refine ⟨?versions, ?entries, ?corrupt, ?names, ?keys⟩
  case versions =>
    intro bytes version
    exact Entry.decode_eq_otherVersion_iff
  case entries =>
    intro bytes styled
    exact Entry.decode_eq_ok_iff
  case corrupt =>
    intro bytes
    exact Entry.decode_eq_corrupt_iff
  case names =>
    intro tier tree name styled found
    exact areOrdered_of_getByName found
  case keys =>
    intro tier tree key styled found
    exact areOrdered_of_getByName found

/-- A preview of a number that is one token. -/
def sampleNumber : StyledText :=
  .highlighted .json "17" [⟨0, 2, .number⟩] .standard

/-- An entry of version 258 is told apart, and one of the current version is found. -/
theorem decode_and_getByName_areOrdered_sample :
    Entry.decode [0x47, 0x4C, 0x48, 0x4C, 2, 1, 0, 0] = .error (.otherVersion 258) ∧
      (Session.sampleTier.get
          (Session.sampleTier.store Session.sampleTree (Session.sampleKey 0) sampleNumber).1
          (Session.sampleKey 0)).2 =
        some sampleNumber ∧
      Span.AreOrdered sampleNumber.text.length sampleNumber.spans := by
  obtain ⟨versions, -, -, -, keys⟩ := decode_and_getByName_areOrdered
  have found :
      (Session.sampleTier.get
          (Session.sampleTier.store Session.sampleTree (Session.sampleKey 0) sampleNumber).1
          (Session.sampleKey 0)).2 =
        some sampleNumber := by
    decide +kernel
  refine ⟨?_, found, keys _ _ _ _ found⟩
  rw [versions]
  exact ⟨by decide, [], 2, 1, 0, 0, rfl, rfl⟩

end DiskTier

end SourcePreview
