import SourcePreview.Proofs.Text.Cutting
import SourcePreview.Proofs.Text.Offsets

/-!
# The longest beginning within some bytes

Going back from a byte offset, the first place to cut that is met is the last one up to there, and
the beginning of a text is such a place.  So cutting a text within so many bytes always leaves a
beginning of it, of which every other beginning within them is one.  That tells it apart: what
comes behind a text that fills the bytes does not matter to it.
-/

namespace SourcePreview.Text

theorem utf8ByteSize_eq_byteLength (text : String) :
    text.utf8ByteSize = byteLength text.toList := by
  obtain ⟨characters, rfl⟩ : ∃ characters, text = String.ofList characters :=
    ⟨text.toList, String.ofList_toList.symm⟩
  rw [String.toList_ofList]
  induction characters with
  | nil => rfl
  | cons character rest ih =>
      rw [String.ofList_cons, String.utf8ByteSize_append, String.utf8ByteSize_singleton,
        byteLength_cons, ih]

/-- A text without bytes is empty. -/
theorem eq_nil_of_byteLength_eq_zero
    {text : List Char} (empty : byteLength text = 0) :
    text = [] := by
  cases text with
  | nil => rfl
  | cons character rest =>
      have positive := character.utf8Size_pos
      rw [byteLength_cons] at empty
      omega

/-- Of two beginnings of a text, the one with fewer bytes is a beginning of the other. -/
theorem prefix_of_byteLength_le
    {first second text : List Char}
    (firstBegins : first <+: text) (secondBegins : second <+: text)
    (fewer : byteLength first ≤ byteLength second) :
    first <+: second := by
  rcases List.prefix_or_prefix_of_prefix firstBegins secondBegins with begins | ⟨rest, rfl⟩
  · exact begins
  · rw [byteLength_append] at fewer
    have nothing : rest = [] := eq_nil_of_byteLength_eq_zero (by omega)
    exact ⟨[], by rw [nothing, List.append_nil, List.append_nil]⟩

/-- A byte offset is a place to cut if a position is there. -/
theorem isSome_pos?_iff {text : String} {byte : Nat} :
    (text.pos? ⟨byte⟩).isSome = true ↔ String.Pos.Raw.IsValid text ⟨byte⟩ := by
  constructor
  case mp =>
    intro found
    obtain ⟨place, found⟩ := Option.isSome_iff_exists.mp found
    have valid := place.isValid
    rwa [show place.offset = ⟨byte⟩ from
      String.Pos.Raw.ext (byteIdx_of_pos? found)] at valid
  case mpr =>
    intro valid
    obtain ⟨passed, rest, parts, size⟩ := String.Pos.Raw.isValid_iff_exists_append.mp valid
    obtain ⟨place, found, -⟩ := exists_pos?_of_eq_append parts
    rw [size]
    exact Option.isSome_iff_exists.mpr ⟨place, found⟩

/-- Going back ends at the last place to cut up to where it started. -/
theorem exists_lastCut? (text : String) (byte : Nat) :
    ∃ cut ≤ byte,
      lastCut? text byte = some cut ∧ String.Pos.Raw.IsValid text ⟨cut⟩ ∧
        ∀ place ≤ byte, String.Pos.Raw.IsValid text ⟨place⟩ → place ≤ cut := by
  induction byte with
  | zero =>
      have fromStart : text = "" ++ text := String.empty_append.symm
      have valid : String.Pos.Raw.IsValid text ⟨0⟩ := isValid_of_eq_append fromStart
      refine ⟨0, Nat.le_refl 0, ?_, valid, fun place isBefore _ => isBefore⟩
      rw [lastCut?, if_pos (isSome_pos?_iff.mpr valid)]
  | succ byte ih =>
      rw [lastCut?]
      split
      case isTrue found =>
        exact
          ⟨byte + 1, Nat.le_refl _, rfl, isSome_pos?_iff.mp found,
            fun place isBefore _ => isBefore⟩
      case isFalse missing =>
        obtain ⟨cut, isBefore, found, valid, last⟩ := ih
        refine ⟨cut, Nat.le_succ_of_le isBefore, found, valid, ?_⟩
        intro place placeBefore placeValid
        have apart : place ≠ byte + 1 := by
          rintro rfl
          exact missing (isSome_pos?_iff.mpr placeValid)
        exact last place (by omega) placeValid

/-- A beginning of a text within so many bytes, of which every other one is a beginning. -/
structure IsLongestBeginning (most : Nat) (text beginning : List Char) : Prop where
  isBeginning : beginning <+: text
  within : byteLength beginning ≤ most
  longest : ∀ other, other <+: text → byteLength other ≤ most → other <+: beginning

theorem IsLongestBeginning.unique
    {most : Nat} {text first second : List Char}
    (isFirst : IsLongestBeginning most text first)
    (isSecond : IsLongestBeginning most text second) :
    first = second :=
  List.IsPrefix.eq_of_length_le
    (isSecond.longest first isFirst.isBeginning isFirst.within)
    (isFirst.longest second isSecond.isBeginning isSecond.within).length_le

/-- What comes behind a text that fills the bytes does not matter. -/
theorem IsLongestBeginning.append
    {most : Nat} {long beginning : List Char}
    (isLongest : IsLongestBeginning most long beginning)
    (fills : most ≤ byteLength long) (rest : List Char) :
    IsLongestBeginning most (long ++ rest) beginning := by
  refine
    ⟨isLongest.isBeginning.trans (List.prefix_append long rest), isLongest.within,
      fun other begins within => isLongest.longest other ?_ within⟩
  exact
    prefix_of_byteLength_le begins (List.prefix_append long rest) (Nat.le_trans within fills)

/-- Cutting a text within so many bytes leaves the longest beginning within them. -/
theorem exists_beginning? (most : Nat) (text : String) :
    ∃ beginning,
      beginning? most text = some beginning ∧
        IsLongestBeginning most text.toList beginning.toList := by
  rw [beginning?]
  split
  case isTrue fits =>
    refine ⟨text, rfl, List.prefix_refl _, ?_, fun _ begins _ => begins⟩
    rwa [← utf8ByteSize_eq_byteLength]
  case isFalse =>
    obtain ⟨cut, isBefore, found, valid, last⟩ := exists_lastCut? text most
    obtain ⟨beginning, rest, parts, size⟩ :=
      String.Pos.Raw.isValid_iff_exists_append.mp valid
    have size : cut = beginning.utf8ByteSize := congrArg String.Pos.Raw.byteIdx size
    have cutOut : stretch? text 0 cut = some beginning := by
      have fromStart : text = "" ++ beginning ++ rest := by
        rw [String.empty_append, parts]
      have between := stretch?_of_eq_append fromStart
      rwa [String.empty_append, ← size] at between
    have begins : beginning.toList <+: text.toList := by
      rw [parts, String.toList_append]
      exact List.prefix_append _ _
    refine ⟨beginning, by rw [found, Option.bind_some, cutOut], begins, ?_, ?_⟩
    · rwa [← utf8ByteSize_eq_byteLength, ← size]
    · rintro other ⟨otherRest, otherParts⟩ within
      have otherValid : String.Pos.Raw.IsValid text ⟨byteLength other⟩ := by
        have parts : text = String.ofList other ++ String.ofList otherRest := by
          rw [← String.ofList_append, otherParts, String.ofList_toList]
        have valid := isValid_of_eq_append parts
        rwa [utf8ByteSize_eq_byteLength, String.toList_ofList] at valid
      have fewer := last _ within otherValid
      rw [size, utf8ByteSize_eq_byteLength] at fewer
      exact prefix_of_byteLength_le ⟨otherRest, otherParts⟩ begins fewer

/-- Cutting texts that begin alike, at least as far as the bytes reach, leaves the same. -/
theorem beginning?_append_eq
    {most : Nat} {long : String} (fills : most ≤ long.utf8ByteSize) (rest : String) :
    beginning? most (long ++ rest) = beginning? most long := by
  obtain ⟨ofLong, longFound, longLongest⟩ := exists_beginning? most long
  obtain ⟨ofBoth, bothFound, bothLongest⟩ := exists_beginning? most (long ++ rest)
  rw [utf8ByteSize_eq_byteLength] at fills
  rw [String.toList_append] at bothLongest
  have same := bothLongest.unique (longLongest.append fills rest.toList)
  rw [longFound, bothFound, String.toList_inj.mp same]

end SourcePreview.Text
