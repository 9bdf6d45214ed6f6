import SourcePreview.Json.Parser
import SourcePreview.Proofs.Text.Utf8

/-!
# Texts in JSON documents

A text is written between quotes with its quotes, backslashes and controls escaped.  The written
form is read up to the closing quote, and it stands for the text.  Both go character by character:
the written form of a character is either an escape or bytes that are none of the three special
kinds.
-/

namespace SourcePreview.Json

/-- Whether a byte stands for itself inside a string. -/
def IsPlain (byte : UInt8) : Prop :=
  ¬ byte < 0x20 ∧ byte ≠ 0x22 ∧ byte ≠ 0x5C

theorem isPlain_ofNat
    {value : Nat} (fits : value < 256) (noControl : 0x20 ≤ value)
    (noQuote : value ≠ 0x22) (noBackslash : value ≠ 0x5C) :
    IsPlain (UInt8.ofNat value) := by
  have byteValue : (UInt8.ofNat value).toNat = value := by
    rw [UInt8.toNat_ofNat', Nat.mod_eq_of_lt fits]
  refine ⟨?_, ?_, ?_⟩
  · simp only [UInt8.lt_iff_toNat_lt, byteValue, UInt8.reduceToNat]
    omega
  · intro same
    exact noQuote (byteValue ▸ congrArg UInt8.toNat same)
  · intro same
    exact noBackslash (byteValue ▸ congrArg UInt8.toNat same)

/-- The bytes of a character that is not special stand for themselves. -/
theorem isPlain_of_mem_utf8EncodeChar
    {character : Char} (noControl : 0x20 ≤ character.toNat)
    (noQuote : character ≠ '"') (noBackslash : character ≠ '\\')
    {byte : UInt8} (member : byte ∈ String.utf8EncodeChar character) :
    IsPlain byte := by
  by_cases ascii : character.toNat < 128
  · rw [Text.utf8EncodeChar_of_ascii ascii] at member
    rw [List.mem_singleton.mp member]
    refine isPlain_ofNat (by omega) noControl ?_ ?_
    · intro same
      exact noQuote (Char.toNat_inj.mp same)
    · intro same
      exact noBackslash (Char.toNat_inj.mp same)
  · have large : ¬ character.val.toNat ≤ 0x7F := by
      have value : character.val.toNat = character.toNat := rfl
      omega
    -- Every byte of a longer character has its highest bit set.
    obtain ⟨value, fits, high, rfl⟩ :
        ∃ value, value < 256 ∧ 0x80 ≤ value ∧ byte = UInt8.ofNat value := by
      simp only [String.utf8EncodeChar, if_neg large] at member
      split at member
      · simp only [List.mem_cons, List.not_mem_nil, or_false] at member
        rcases member with rfl | rfl
        all_goals exact ⟨_, by omega, by omega, rfl⟩
      split at member
      · simp only [List.mem_cons, List.not_mem_nil, or_false] at member
        rcases member with rfl | rfl | rfl
        all_goals exact ⟨_, by omega, by omega, rfl⟩
      · simp only [List.mem_cons, List.not_mem_nil, or_false] at member
        rcases member with rfl | rfl | rfl | rfl
        all_goals exact ⟨_, by omega, by omega, rfl⟩
    exact isPlain_ofNat fits (by omega) (by omega) (by omega)

/-- How a character is written: plainly, with a letter after a backslash, or by its code. -/
inductive WrittenForm (character : Char) : Prop where
  | plain
      (bytes : escapeChar character = String.utf8EncodeChar character)
      (isPlain : ∀ byte ∈ String.utf8EncodeChar character, IsPlain byte)
  | letter (letter byte : UInt8)
      (bytes : escapeChar character = [0x5C, letter])
      (escape : letterEscape? letter = some byte)
      (noCode : letter ≠ 0x75)
      (encoded : String.utf8EncodeChar character = [byte])
  | code (high low : UInt8)
      (bytes : escapeChar character = [0x5C, 0x75, 0x30, 0x30, high, low])
      (digits : (fourDigits? [0x30, 0x30, high, low]).isSome = true)
      (escape : ∀ rest,
        codeEscape? (0x30 :: 0x30 :: high :: low :: rest) =
          some (character, rest))

/-- Four digits of a number below 32 and the escape that they make. -/
theorem codeEscape?_of_digits
    {value : Nat} {high low : UInt8} (small : value < 0x20)
    (highDigit : Text.hexValue? high = some (value / 16))
    (lowDigit : Text.hexValue? low = some (value % 16)) :
    (fourDigits? [0x30, 0x30, high, low]).isSome = true ∧
      ∀ rest,
        codeEscape? (0x30 :: 0x30 :: high :: low :: rest) =
          some (Char.ofNat value, rest) := by
  have zero : Text.hexValue? 0x30 = some 0 := rfl
  have digits (rest : Bytes) :
      fourDigits? (0x30 :: 0x30 :: high :: low :: rest) =
        some (value, rest) := by
    have whole : value / 16 * 16 + value % 16 = value := by omega
    simp [fourDigits?, zero, highDigit, lowDigit, whole]
  refine ⟨by rw [digits []]; rfl, fun rest => ?_⟩
  have notLow : ¬ (0xDC00 ≤ value ∧ value ≤ 0xDFFF) := by omega
  have notHigh : ¬ (0xD800 ≤ value ∧ value ≤ 0xDBFF) := by omega
  simp [codeEscape?, digits rest, notLow, notHigh]

/-- The five controls with a letter of their own; every other control is written by its code. -/
theorem escapeChar_of_control :
    ∀ value < 0x20,
      value ∈ [0x08, 0x09, 0x0A, 0x0C, 0x0D] ∨
        escapeChar (Char.ofNat value) =
            [0x5C, 0x75, 0x30, 0x30,
              UInt8.ofNat (Text.lowerHexDigit (value / 16)).toNat,
              UInt8.ofNat (Text.lowerHexDigit (value % 16)).toNat] ∧
          Text.hexValue?
              (UInt8.ofNat (Text.lowerHexDigit (value / 16)).toNat) =
            some (value / 16) ∧
          Text.hexValue?
              (UInt8.ofNat (Text.lowerHexDigit (value % 16)).toNat) =
            some (value % 16) := by
  decide +kernel

/-- Every character is written in one of the three forms. -/
theorem writtenForm (character : Char) : WrittenForm character := by
  by_cases control : character.toNat < 0x20
  · have same : Char.ofNat character.toNat = character :=
      Char.ofNat_toNat character
    rcases escapeChar_of_control character.toNat control with
      own | ⟨bytes, highDigit, lowDigit⟩
    · simp only [List.mem_cons, List.not_mem_nil, or_false] at own
      rcases own with value | value | value | value | value
      all_goals rw [value] at same
      · exact .letter 0x62 0x08 (same ▸ rfl) rfl (by decide) (same ▸ rfl)
      · exact .letter 0x74 0x09 (same ▸ rfl) rfl (by decide) (same ▸ rfl)
      · exact .letter 0x6E 0x0A (same ▸ rfl) rfl (by decide) (same ▸ rfl)
      · exact .letter 0x66 0x0C (same ▸ rfl) rfl (by decide) (same ▸ rfl)
      · exact .letter 0x72 0x0D (same ▸ rfl) rfl (by decide) (same ▸ rfl)
    · obtain ⟨digits, escape⟩ :=
        codeEscape?_of_digits control highDigit lowDigit
      rw [same] at bytes escape
      exact .code _ _ bytes digits escape
  by_cases quote : character = '"'
  · subst quote
    exact .letter 0x22 0x22 rfl rfl (by decide) rfl
  by_cases backslash : character = '\\'
  · subst backslash
    exact .letter 0x5C 0x5C rfl rfl (by decide) rfl
  refine .plain ?_ fun byte member =>
    isPlain_of_mem_utf8EncodeChar (by omega) quote backslash member
  unfold escapeChar
  split
  case h_8 => rw [if_neg control]
  all_goals first
    | exact absurd rfl quote
    | exact absurd rfl backslash
    | exact absurd (by decide) control

/-- A plain byte is read as it stands. -/
theorem readString_plain
    {byte : UInt8} (plain : IsPlain byte) (read rest : Bytes) :
    readString read (byte :: rest) = readString (byte :: read) rest := by
  obtain ⟨noControl, noQuote, noBackslash⟩ := plain
  rw [readString]
  · simp [noControl, noQuote, noBackslash]
  · intro _ _ _ _ _ backslash
    exact absurd backslash noBackslash
  · intro _ _ backslash
    exact absurd backslash noBackslash

theorem readString_bytes
    {bytes : Bytes} (plain : ∀ byte ∈ bytes, IsPlain byte)
    (read rest : Bytes) :
    readString read (bytes ++ rest) =
      readString (bytes.reverse ++ read) rest := by
  induction bytes generalizing read with
  | nil => rfl
  | cons byte bytes ih =>
      rw [List.cons_append, readString_plain (plain byte (by simp)),
        ih fun other member => plain other (by simp [member])]
      simp

/-- A letter after a backslash is read together with it. -/
theorem readString_letter
    {letter : UInt8} (escape : (letterEscape? letter).isSome = true)
    (noCode : letter ≠ 0x75) (read rest : Bytes) :
    readString read (0x5C :: letter :: rest) =
      readString (letter :: 0x5C :: read) rest := by
  rw [readString]
  · rw [if_pos escape]
  · intro _ _ _ _ _ code
    exact absurd code noCode

/-- A written character is read as it stands. -/
theorem readString_escapeChar
    (character : Char) (read rest : Bytes) :
    readString read (escapeChar character ++ rest) =
      readString ((escapeChar character).reverse ++ read) rest := by
  cases writtenForm character with
  | plain bytes isPlain =>
      rw [bytes]
      exact readString_bytes isPlain read rest
  | letter letter byte bytes escape noCode encoded =>
      rw [bytes]
      exact readString_letter (by rw [escape]; rfl) noCode read rest
  | code high low bytes digits escape =>
      rw [bytes]
      simp only [List.cons_append, List.nil_append]
      rw [readString, if_pos digits]
      rfl

/-- Written characters are read up to the closing quote. -/
theorem readString_flatMap_escapeChar
    (characters : List Char) (read rest : Bytes) :
    readString read (characters.flatMap escapeChar ++ 0x22 :: rest) =
      some (read.reverse ++ characters.flatMap escapeChar, rest) := by
  induction characters generalizing read with
  | nil => simp [readString]
  | cons character characters ih =>
      rw [List.flatMap_cons, List.append_assoc, readString_escapeChar, ih]
      simp

theorem readString_escape
    (text : String) (rest : Bytes) :
    readString [] (escape text ++ 0x22 :: rest) =
      some (escape text, rest) :=
  readString_flatMap_escapeChar text.toList [] rest

/-- Bytes that stand for themselves are taken as they are, one in a round. -/
theorem unescapeFrom_bytes
    {bytes : Bytes} (plain : ∀ byte ∈ bytes, IsPlain byte)
    (rounds : Nat) (rest read : Bytes) :
    unescapeFrom (rounds + bytes.length) (bytes ++ rest) read =
      unescapeFrom rounds rest (bytes.reverse ++ read) := by
  induction bytes generalizing read with
  | nil => rfl
  | cons byte bytes ih =>
      obtain ⟨_, _, noBackslash⟩ := plain byte (by simp)
      rw [List.length_cons, ← Nat.add_assoc, List.cons_append, unescapeFrom]
      · rw [if_neg noBackslash,
          ih fun other member => plain other (by simp [member])]
        simp
      · intro _ backslash
        exact absurd backslash noBackslash
      · intro _ _ backslash
        exact absurd backslash noBackslash

/-- A round that takes some bytes leaves enough rounds for the others. -/
theorem exists_unescapeFrom_of_round
    {rounds : Nat} {taken rest read more : Bytes} (some : taken ≠ [])
    (enough : taken.length + rest.length ≤ rounds)
    (round : ∀ left, unescapeFrom (left + 1) (taken ++ rest) read = unescapeFrom left rest more) :
    ∃ left, rest.length ≤ left ∧
      unescapeFrom rounds (taken ++ rest) read = unescapeFrom left rest more := by
  have positive := List.length_pos_iff.mpr some
  obtain ⟨left, rfl⟩ : ∃ left, rounds = left + 1 := ⟨rounds - 1, by omega⟩
  exact ⟨left, by omega, round left⟩

/-- The written form of a character is taken as the bytes of the character. -/
theorem unescapeFrom_escapeChar
    (character : Char) (read : Bytes) {rounds : Nat} {rest : Bytes}
    (enough : (escapeChar character).length + rest.length ≤ rounds) :
    ∃ left, rest.length ≤ left ∧
      unescapeFrom rounds (escapeChar character ++ rest) read =
        unescapeFrom left rest
          ((String.utf8EncodeChar character).reverse ++ read) := by
  cases writtenForm character with
  | plain bytes isPlain =>
      rw [bytes] at enough ⊢
      refine
        ⟨rounds - (String.utf8EncodeChar character).length, by omega, ?_⟩
      rw [← unescapeFrom_bytes isPlain, Nat.sub_add_cancel (by omega)]
  | letter letter byte bytes escape noCode encoded =>
      rw [bytes] at enough ⊢
      refine exists_unescapeFrom_of_round (List.cons_ne_nil _ _) enough fun left => ?_
      simp only [List.cons_append, List.nil_append]
      rw [unescapeFrom]
      · simp [escape, encoded]
      · exact fun code => absurd code noCode
  | code high low bytes digits escape =>
      rw [bytes] at enough ⊢
      refine exists_unescapeFrom_of_round (List.cons_ne_nil _ _) enough fun left => ?_
      simp only [List.cons_append, List.nil_append]
      rw [unescapeFrom]
      simp [escape, List.reverseAux_eq]

/-- The written forms of characters are taken as the bytes of the characters, last first. -/
theorem unescapeFrom_flatMap_escapeChar
    (characters : List Char) {rounds : Nat} (read : Bytes)
    (enough : (characters.flatMap escapeChar).length ≤ rounds) :
    unescapeFrom rounds (characters.flatMap escapeChar) read =
      some ((Text.encode characters).reverse ++ read) := by
  induction characters generalizing rounds read with
  | nil => cases rounds <;> rfl
  | cons character characters ih =>
      rw [List.flatMap_cons, List.length_append] at enough
      obtain ⟨left, leftEnough, taken⟩ :=
        unescapeFrom_escapeChar character read enough
      rw [List.flatMap_cons, taken, ih _ leftEnough]
      simp

/-- A written text stands for the text. -/
@[simp]
theorem unescape?_escape (text : String) :
    unescape? (escape text) = some text := by
  have reversed := unescapeFrom_flatMap_escapeChar text.toList [] (Nat.le_refl _)
  rw [← escape] at reversed
  simp [unescape?, reversed]

end SourcePreview.Json
