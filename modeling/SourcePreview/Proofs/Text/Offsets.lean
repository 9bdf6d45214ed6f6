import SourcePreview.Highlight.ByteOffsets
import SourcePreview.Text.Utf8
import Mathlib.Data.List.Basic
import Mathlib.Order.Monotone.Defs

/-!
# Byte offsets between characters

The offset of a character is the number of bytes of the characters before it.  Offsets grow
strictly with the index of the character, up to the end of the text, so a byte offset between
two characters determines how many characters come before it.  The table that highlighting uses
computes exactly that number, and so does cutting the text at the offset.
-/

namespace SourcePreview

namespace Text

@[simp]
theorem byteLength_nil : byteLength [] = 0 := rfl

@[simp]
theorem byteLength_cons (character : Char) (rest : List Char) :
    byteLength (character :: rest) =
      character.utf8Size + byteLength rest := rfl

@[simp]
theorem byteLength_append (left right : List Char) :
    byteLength (left ++ right) =
      byteLength left + byteLength right := by
  induction left with
  | nil => simp
  | cons character rest ih =>
      rw [List.cons_append, byteLength_cons, byteLength_cons, ih, Nat.add_assoc]

/-- The number of bytes before the character at an index. -/
def offsetAt (text : List Char) (index : Nat) : Nat :=
  byteLength (text.take index)

@[simp]
theorem offsetAt_zero (text : List Char) : offsetAt text 0 = 0 := by
  simp [offsetAt]

@[simp]
theorem offsetAt_cons_succ
    (character : Char) (rest : List Char) (index : Nat) :
    offsetAt (character :: rest) (index + 1) =
      character.utf8Size + offsetAt rest index := by
  simp [offsetAt]

@[simp]
theorem offsetAt_append_length (passed coming : List Char) :
    offsetAt (passed ++ coming) passed.length =
      byteLength passed := by
  simp [offsetAt]

/-- A later character has a greater offset. -/
theorem offsetAt_lt_offsetAt
    {text : List Char} {left right : Nat}
    (before : left < right) (inside : right ≤ text.length) :
    offsetAt text left < offsetAt text right := by
  induction text generalizing left right with
  | nil => simp at inside; omega
  | cons character rest ih =>
      obtain ⟨right, rfl⟩ : ∃ smaller, right = smaller + 1 :=
        ⟨right - 1, by omega⟩
      have positive : 0 < character.utf8Size :=
        character.utf8Size_pos
      cases left with
      | zero =>
          rw [offsetAt_zero, offsetAt_cons_succ]
          omega
      | succ left =>
          rw [offsetAt_cons_succ, offsetAt_cons_succ]
          have smaller : offsetAt rest left < offsetAt rest right :=
            ih (by omega) (by simpa using inside)
          omega

/-- Up to the end of a text, offsets are ordered as the indices are. -/
theorem offsetAt_lt_iff
    {text : List Char} {left right : Nat}
    (leftInside : left ≤ text.length) (rightInside : right ≤ text.length) :
    offsetAt text left < offsetAt text right ↔ left < right := by
  constructor
  · intro less
    by_contra notLess
    rcases Nat.lt_or_eq_of_le (Nat.le_of_not_lt notLess) with greater | equal
    · have reversed := offsetAt_lt_offsetAt greater leftInside
      omega
    · rw [equal] at less
      omega
  · intro less
    exact offsetAt_lt_offsetAt less rightInside

theorem offsetAt_le_iff
    {text : List Char} {left right : Nat}
    (leftInside : left ≤ text.length) (rightInside : right ≤ text.length) :
    offsetAt text left ≤ offsetAt text right ↔ left ≤ right := by
  have reversed :
      offsetAt text right < offsetAt text left ↔ right < left :=
    offsetAt_lt_iff rightInside leftInside
  omega

/-- Whether a byte offset lies between two characters of a text or at one of its ends. -/
def IsBoundary (text : List Char) (offset : Nat) : Prop :=
  ∃ index ≤ text.length, offset = offsetAt text index

/-- How many characters come before a byte offset. -/
def charactersBefore (text : List Char) (offset : Nat) : Nat :=
  (bytePrefix offset text).length

@[simp]
theorem charactersBefore_offsetAt
    {text : List Char} {index : Nat} (inside : index ≤ text.length) :
    charactersBefore text (offsetAt text index) = index := by
  induction text generalizing index with
  | nil =>
      have indexZero : index = 0 := by simpa using inside
      simp [indexZero, charactersBefore, bytePrefix]
  | cons character rest ih =>
      have positive : 0 < character.utf8Size :=
        character.utf8Size_pos
      cases index with
      | zero =>
          have tooLong : ¬ character.utf8Size ≤ 0 := by omega
          simp only [charactersBefore, offsetAt_zero, bytePrefix,
            if_neg tooLong, List.length_nil]
      | succ index =>
          have tail : charactersBefore rest (offsetAt rest index) = index :=
            ih (by simpa using inside)
          simpa [charactersBefore, bytePrefix] using tail

theorem charactersBefore_append (passed coming : List Char) :
    charactersBefore (passed ++ coming) (byteLength passed) = passed.length := by
  rw [← offsetAt_append_length passed coming]
  exact charactersBefore_offsetAt (by simp)

end Text

namespace ByteOffsets

open Text

/-- Filling a table keeps what is in it already. -/
theorem getElem?_fill_of_lt
    (text : List Char) (index : Nat) (table : Array Nat)
    {place : Nat} (filled : place < table.size) :
    (fill text index table)[place]? = table[place]? := by
  induction text generalizing index table with
  | nil => simp [fill, Array.getElem?_push, Nat.ne_of_lt filled]
  | cons character rest ih =>
      rw [fill, ih]
      · simp [Array.getElem?_append, filled]
      · simp; omega

/-- The entry for the offset of a character counts the characters before it. -/
theorem getElem?_fill
    (text : List Char) (index : Nat) (table : Array Nat)
    {count : Nat} (inside : count ≤ text.length) :
    (fill text index table)[table.size + offsetAt text count]? =
      some (index + count) := by
  induction text generalizing index table count with
  | nil =>
      have countZero : count = 0 := by simpa using inside
      simp [fill, countZero]
  | cons character rest ih =>
      have positive : 0 < character.utf8Size :=
        character.utf8Size_pos
      cases count with
      | zero =>
          rw [fill, offsetAt_zero, getElem?_fill_of_lt]
          · simp [positive]
          · simp [positive]
      | succ count =>
          have tailInside : count ≤ rest.length := by simpa using inside
          have tail :=
            ih (index + 1)
              (table ++ Array.replicate character.utf8Size index)
              tailInside
          rw [fill, offsetAt_cons_succ, ← Nat.add_assoc]
          simpa [Nat.add_assoc, Nat.add_comm 1 count] using tail

/-- Each character has as many entries in the table as bytes, and the end has one. -/
theorem size_fill (text : List Char) (index : Nat) (table : Array Nat) :
    (fill text index table).size = table.size + byteLength text + 1 := by
  induction text generalizing index table with
  | nil => simp [fill]
  | cons character rest ih =>
      rw [fill, ih]
      simp [Nat.add_assoc]

/-- In a text of ASCII characters the offset of a character is its index. -/
theorem offsetAt_of_ascii
    {text : List Char} {index : Nat}
    (ascii : ∀ character ∈ text, character.toNat < 128)
    (inside : index ≤ text.length) :
    offsetAt text index = index := by
  induction text generalizing index with
  | nil =>
      have indexZero : index = 0 := by simpa using inside
      simp [indexZero]
  | cons character rest ih =>
      cases index with
      | zero => simp
      | succ index =>
          have single : character.utf8Size = 1 := by
            rw [Char.utf8Size_eq_one_iff]
            have small := ascii character (by simp)
            rw [UInt32.le_iff_toNat_le]
            have value : character.val.toNat = character.toNat := rfl
            have limit : (127 : UInt32).toNat = 127 := rfl
            omega
          have tail : offsetAt rest index = index :=
            ih (fun member isMember => ascii member (by simp [isMember]))
              (by simpa using inside)
          rw [offsetAt_cons_succ, single, tail, Nat.add_comm]

/-- The conversion by the table, for any text. -/
def tabled (text : List Char) : ByteOffsets := ⟨some (fill text 0 #[])⟩

/-- The conversion without a table. -/
def direct : ByteOffsets := ⟨none⟩

theorem ofText_eq_ite (text : List Char) :
    ofText text =
      if text.all fun character => character.toNat < 128 then direct else tabled text := rfl

/-- The table converts the offset of a character to its index. -/
theorem charIndex_tabled_offsetAt
    {text : List Char} {index : Nat} (inside : index ≤ text.length) :
    (tabled text).charIndex (offsetAt text index) = index := by
  have entry := getElem?_fill text 0 #[] inside
  simp only [Array.size_empty, Nat.zero_add] at entry
  simp [tabled, charIndex, Array.getD_eq_getD_getElem?, entry]

/-- The offset of a character is converted to its index. -/
@[simp]
theorem charIndex_offsetAt
    {text : List Char} {index : Nat} (inside : index ≤ text.length) :
    (ofText text).charIndex (offsetAt text index) = index := by
  rw [ofText_eq_ite]
  split
  · next ascii =>
      have small : ∀ character ∈ text, character.toNat < 128 := by
        simpa using ascii
      exact offsetAt_of_ascii small inside
  · exact charIndex_tabled_offsetAt inside

/-- On a boundary both ways of counting characters agree. -/
theorem charIndex_eq_charactersBefore
    {text : List Char} {offset : Nat} (boundary : IsBoundary text offset) :
    (ofText text).charIndex offset = charactersBefore text offset := by
  obtain ⟨index, inside, rfl⟩ := boundary
  rw [charIndex_offsetAt inside, charactersBefore_offsetAt inside]

end ByteOffsets

end SourcePreview
