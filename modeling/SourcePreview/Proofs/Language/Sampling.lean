import SourcePreview.Language.Detect
import SourcePreview.Proofs.Text.Beginnings

/-!
# How much of a text its language depends on

A file that its name does not tell is classified by what its first line calls and by the shape of
its beginning, and both are looked for in what is left when the text is cut within some bytes.  So
nothing behind the bytes of the longer of the two cuts matters to its language, wherever in a
character they end.
-/

namespace SourcePreview.Language

open Text

theorem ofCall?_append_eq
    {long : String} (fills : shebangBytes ≤ long.utf8ByteSize) (rest : String) :
    ofCall? (long ++ rest) = ofCall? long := by
  rw [ofCall?, ofCall?, beginning?_append_eq fills rest]

/-- The interpreter is looked for in the first bytes of a text. -/
theorem ofShebang?_append_eq
    {long : String} (fills : shebangBytes + 2 ≤ long.utf8ByteSize) (rest : String) :
    ofShebang? (long ++ rest) = ofShebang? long := by
  rw [utf8ByteSize_eq_byteLength] at fills
  rw [ofShebang?, ofShebang?, String.toList_append]
  match characters : long.toList with
  | [] =>
      rw [characters, byteLength_nil] at fills
      cases fills
  | [character] =>
      have short := character.utf8Size_le_four
      rw [characters, byteLength_cons, byteLength_nil, shebangBytes] at fills
      omega
  | first :: second :: called =>
      rw [List.cons_append, List.cons_append]
      split
      case h_1 marked =>
        -- The mark has two bytes, so what it calls fills the rest.
        rw [List.cons.injEq, List.cons.injEq] at marked
        obtain ⟨rfl, rfl, rfl⟩ := marked
        have calledFills : shebangBytes ≤ (String.ofList called).utf8ByteSize := by
          rw [utf8ByteSize_eq_byteLength, String.toList_ofList]
          have marks : Char.utf8Size '#' + Char.utf8Size '!' = 2 := by decide
          rw [characters, byteLength_cons, byteLength_cons] at fills
          omega
        rw [String.ofList_append, String.ofList_toList]
        exact ofCall?_append_eq calledFills rest
      case h_2 unmarked =>
        split
        case h_1 called marked =>
          rw [List.cons.injEq, List.cons.injEq] at marked
          obtain ⟨rfl, rfl, -⟩ := marked
          exact (unmarked _ rfl).elim
        case h_2 => rfl

/-- A text that begins with no byte order mark is judged by its first bytes. -/
theorem sample?_append_eq
    {long : String} (fills : sampleBytes ≤ long.utf8ByteSize)
    (unmarked : long.toList.head? ≠ some '\ufeff') (rest : String) :
    sample? (long ++ rest) = sample? long := by
  have begins : ∃ first others, long.toList = first :: others ∧ first ≠ '\ufeff' := by
    rw [utf8ByteSize_eq_byteLength] at fills
    match characters : long.toList with
    | [] =>
        rw [characters, byteLength_nil] at fills
        cases fills
    | first :: others =>
        refine ⟨first, others, rfl, fun isMark => unmarked ?_⟩
        rw [characters, isMark, List.head?_cons]
  obtain ⟨first, others, characters, isNoMark⟩ := begins
  have kept (more : List Char) :
      (first :: more).dropWhile (· == '\ufeff') = first :: more :=
    List.dropWhile_cons_of_neg (by simpa using isNoMark)
  rw [sample?, sample?, String.toList_append, characters, List.cons_append, kept, kept,
    ← List.cons_append, ← characters, String.ofList_append, String.ofList_toList,
    String.ofList_toList, beginning?_append_eq fills rest]

/-- The language of a file depends on no more than its path and 512 bytes of its text, unless the
text begins with a byte order mark.  Both cuts of the text come back from the last byte they allow
to a place between characters, at the latest to the beginning of the text, and leave the longest
beginning within the bytes. -/
theorem classify_append_eq_and_exists_beginning :
    (∀ (path : Path) (long first second : String),
        512 ≤ long.utf8ByteSize → long.toList.head? ≠ some '\ufeff' →
          classify path (some (long ++ first)) = classify path (some (long ++ second))) ∧
      ∀ (text : String) (most : Nat),
        (∃ cut ≤ most,
          lastCut? text most = some cut ∧ String.Pos.Raw.IsValid text ⟨cut⟩ ∧
            ∀ place ≤ most, String.Pos.Raw.IsValid text ⟨place⟩ → place ≤ cut) ∧
          ∃ beginning,
            beginning? most text = some beginning ∧
              IsLongestBeginning most text.toList beginning.toList := by
  refine ⟨fun path long first second fills unmarked => ?_, fun text most =>
    ⟨exists_lastCut? text most, exists_beginning? most text⟩⟩
  have called (rest : String) : ofShebang? (long ++ rest) = ofShebang? long :=
    ofShebang?_append_eq (Nat.le_trans (by decide) fills) rest
  have shaped (rest : String) : ofShape? (long ++ rest) = ofShape? long := by
    rw [ofShape?, ofShape?, sample?_append_eq fills unmarked]
  cases named : ofPath? path with
  | some language => simp only [classify, named]
  | none => simp only [classify, named, called, shaped]

/-- The characters of a script, of which one stands across each cut. -/
def sampleCharacters : List Char :=
  "#! /bin/sh\n".toList ++ List.replicate 256 'é'

/-- What a script goes on with behind the bytes that are looked at does not change its language. -/
theorem classify_append_eq_and_exists_beginning_sample :
    512 ≤ (String.ofList sampleCharacters).utf8ByteSize ∧
      (String.ofList sampleCharacters).toList.head? ≠ some '\ufeff' ∧
        classify (.ofString "run") (some (String.ofList sampleCharacters ++ "\nkey: 1\nkey: 2")) =
          classify (.ofString "run") (some (String.ofList sampleCharacters ++ "")) := by
  have bytes : byteLength sampleCharacters = 523 := by decide +kernel
  have begins : sampleCharacters.head? = some '#' := by decide +kernel
  have fills : 512 ≤ (String.ofList sampleCharacters).utf8ByteSize := by
    rw [utf8ByteSize_eq_byteLength, String.toList_ofList, bytes]
    decide
  have unmarked : (String.ofList sampleCharacters).toList.head? ≠ some '\ufeff' := by
    rw [String.toList_ofList, begins]
    decide
  exact
    ⟨fills, unmarked, classify_append_eq_and_exists_beginning.1 _ _ _ _ fills unmarked⟩

end SourcePreview.Language
