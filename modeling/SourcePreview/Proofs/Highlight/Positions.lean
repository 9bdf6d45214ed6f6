import SourcePreview.Proofs.Highlight.Run
import SourcePreview.Proofs.Text.Beginnings
import SourcePreview.Proofs.Text.Cutting
import Mathlib.Data.List.Forall2

/-!
# Where spans stand in a text

Matches are found at byte offsets and spans count characters.  A conversion of offsets is exact if
it gives, between any two characters and at both ends of a text, the number of characters before.
The table is exact for every text and counting bytes is exact for ASCII, so highlighting may choose
between them.  Hence the characters that a span takes from a text are those of the bytes that its
token has claimed.
-/

namespace SourcePreview

namespace Text

/-- The stretch between the offsets of two characters is made of the characters between. -/
theorem stretch?_offsetAt
    {text : String} {start stop : Nat} (ordered : start ≤ stop) :
    stretch? text (offsetAt text.toList start) (offsetAt text.toList stop) =
      some (String.ofList (text.toList.extract start stop)) := by
  have upTo : text.toList.take start ++ text.toList.extract start stop =
      text.toList.take stop := by
    rw [List.extract_eq_take_drop, ← List.take_add, Nat.add_sub_cancel' ordered]
  have parts :
      text =
        String.ofList (text.toList.take start) ++ String.ofList (text.toList.extract start stop) ++
          String.ofList (text.toList.drop stop) := by
    rw [← String.ofList_append, upTo, ← String.ofList_append, List.take_append_drop,
      String.ofList_toList]
  have cut := stretch?_of_eq_append parts
  rwa [← String.ofList_append, upTo, utf8ByteSize_eq_byteLength, utf8ByteSize_eq_byteLength,
    String.toList_ofList, String.toList_ofList] at cut

end Text

namespace ByteOffsets

open Text

/-- Whether a conversion counts the characters before every place between characters of a text and
can be asked at every offset up to the end. -/
structure IsExact (offsets : ByteOffsets) (text : String) : Prop where
  counts : ∀ before after : String,
    before ++ after = text → offsets.charIndex before.utf8ByteSize = before.length
  inRange : ∀ table, offsets.table = some table →
    ∀ offset ≤ text.utf8ByteSize, offset < table.size

/-- A conversion that gives the index of every character is exact. -/
theorem IsExact.of_charIndex_offsetAt
    {offsets : ByteOffsets} {text : String}
    (converts : ∀ index ≤ text.toList.length,
      offsets.charIndex (offsetAt text.toList index) = index)
    (inRange : ∀ table, offsets.table = some table →
      ∀ offset ≤ text.utf8ByteSize, offset < table.size) :
    offsets.IsExact text := by
  refine ⟨?_, inRange⟩
  rintro before after rfl
  have index := converts before.toList.length (by simp)
  rwa [String.toList_append, offsetAt_append_length, ← utf8ByteSize_eq_byteLength,
    String.length_toList] at index

/-- The table is exact for every text. -/
theorem isExact_tabled (text : String) : (tabled text.toList).IsExact text := by
  refine .of_charIndex_offsetAt (fun index inside => charIndex_tabled_offsetAt inside) ?_
  rintro table ⟨⟩ offset upTo
  rw [utf8ByteSize_eq_byteLength] at upTo
  rw [size_fill]
  simp only [Array.size_empty]
  omega

/-- Counting bytes is exact for a text of ASCII characters. -/
theorem isExact_direct
    {text : String} (ascii : ∀ character ∈ text.toList, character.toNat < 128) :
    direct.IsExact text :=
  .of_charIndex_offsetAt (fun _ inside => offsetAt_of_ascii ascii inside) nofun

/-- The conversion that highlighting chooses is exact. -/
theorem isExact_ofText (text : String) : (ofText text.toList).IsExact text := by
  rw [ofText_eq_ite]
  split
  · next ascii => exact isExact_direct (by simpa using ascii)
  · exact isExact_tabled text

end ByteOffsets

/-- Whether a span takes from a text the characters that stand in the bytes of a claimed stretch,
for the same class. -/
structure Span.CutsOut (text : String) (claim : Claim) (span : Span) : Prop where
  tokenClass : span.tokenClass = claim.tokenClass
  characters :
    Text.stretch? text claim.start claim.stop =
      some (String.ofList (text.toList.extract span.start span.stop))

/-- Counted in characters, a stretch between characters cuts out what it claims. -/
theorem Claim.OnBoundaries.cutsOut_toSpan
    {text : String} {claim : Claim} (between : claim.OnBoundaries text.toList)
    (ordered : claim.start ≤ claim.stop) :
    (claim.toSpan text.toList).CutsOut text claim := by
  obtain ⟨⟨start, startInside, startAt⟩, ⟨stop, stopInside, stopAt⟩⟩ := between
  rw [startAt, stopAt, Text.offsetAt_le_iff startInside stopInside] at ordered
  refine ⟨rfl, ?_⟩
  simp only [toSpan, startAt, stopAt, Text.charactersBefore_offsetAt startInside,
    Text.charactersBefore_offsetAt stopInside]
  exact Text.stretch?_offsetAt ordered

namespace Highlight

/-- What a run has claimed is in order and was asked for by its rules. -/
theorem claimed_of_runRules
    {calledOff : Nat → Bool} {text : List Char} {poll : Nat} {rules : List Rule} {claims : Claims}
    (completes : runRules calledOff text poll rules Claims.none = some claims) :
    Claim.Ordered claims.toList ∧ ∀ claim ∈ claims.toList, claim ∈ candidates rules text := by
  rw [runRules_eq_ite] at completes
  split at completes
  · cases completes
  · cases completes
    obtain ⟨ordered, sorted⟩ := candidates_foldl_add rules text
    refine ⟨ordered, fun claim member => ?_⟩
    rw [sorted] at member
    exact mem_of_mem_select (List.mem_mergeSort.mp member)

/-- The spans of claimed stretches cut out what the stretches claim. -/
theorem forall₂_cutsOut_spansOf
    {calledOff : Nat → Bool} {text : String} {poll : Nat} {rules : List Rule} {claims : Claims}
    (completes : runRules calledOff text.toList poll rules Claims.none = some claims) :
    List.Forall₂ (Span.CutsOut text) claims.toList (spansOf text.toList claims.toList) := by
  obtain ⟨ordered, asked⟩ := claimed_of_runRules completes
  have between : ∀ claim ∈ claims.toList, claim.OnBoundaries text.toList :=
    fun claim member => onBoundaries_of_mem_candidates (asked claim member)
  rw [spansOf_eq_map_toSpan between, List.forall₂_map_right_iff, List.forall₂_same]
  intro claim member
  exact (between claim member).cutsOut_toSpan (Nat.le_of_lt (ordered.nonempty claim member))

end Highlight

/--
The table of offsets is exact for every text, counting bytes is exact for a text of ASCII
characters, and the conversion that highlighting chooses is exact: at every byte offset between
characters, and at both ends, it gives the number of characters before, and no offset up to the
end is out of its range.  Hence each stretch that a completed run over a text has claimed is
reported as a span of its class whose characters are those in the bytes of the stretch.
-/
theorem ByteOffsets.isExact_and_spans_cutOut (text : String) :
    (tabled text.toList).IsExact text ∧
    ((∀ character ∈ text.toList, character.toNat < 128) → direct.IsExact text) ∧
    (ofText text.toList).IsExact text ∧
    ∀ (language : Language) (table : RuleTable) (calledOff : Nat → Bool) (claims : Claims),
      language.ruleTable? = some table →
      Highlight.runRules calledOff text.toList 0 (Highlight.activeRules language table)
        Claims.none = some claims →
      ∃ spans,
        Highlight.spans? language text calledOff = some spans ∧
        List.Forall₂ (Span.CutsOut text) claims.toList spans := by
  refine ⟨isExact_tabled text, isExact_direct, isExact_ofText text, ?_⟩
  intro language table calledOff claims tabled completes
  refine ⟨_, ?_, Highlight.forall₂_cutsOut_spansOf completes⟩
  rw [Highlight.spans?, tabled]
  simp only [completes, Option.map_some]

example : (ByteOffsets.ofText "aé€b".toList).charIndex 6 = 3 := by decide

end SourcePreview
