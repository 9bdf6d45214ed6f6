import SourcePreview.Text.Utf8
import Mathlib.Algebra.Group.Nat.Defs
import Mathlib.Data.List.Basic

/-!
# Reading UTF-8 back

The bytes of a text are read back as the text.  The machine that reads them takes the bytes of one
character from a state without an unfinished character to such a state again, so the characters
can be taken one at a time, whatever was read before.  In the other direction, what has been read
of an unfinished character is the beginning of every character that it may become, so nothing but
the bytes of a text is read as that text.
-/

namespace SourcePreview.Text

@[simp]
theorem encode_nil : encode [] = [] := rfl

@[simp]
theorem encode_cons (character : Char) (rest : List Char) :
    encode (character :: rest) =
      String.utf8EncodeChar character ++ encode rest := rfl

@[simp]
theorem encode_append (left right : List Char) :
    encode (left ++ right) = encode left ++ encode right := by
  simp [encode]

/-- An ASCII character is written as one byte. -/
theorem utf8EncodeChar_of_ascii
    {character : Char} (ascii : character.toNat < 128) :
    String.utf8EncodeChar character = [UInt8.ofNat character.toNat] := by
  have small : character.val.toNat ≤ 0x7F :=
    Nat.le_of_lt_succ ascii
  simp only [String.utf8EncodeChar, if_pos small]
  rfl

namespace Decoder

/-- A byte in the wanted range goes on with the character that has begun. -/
theorem feed_next
    {owed bits value : Nat} {least greatest : UInt8}
    {read : List (Option Char)}
    (low : least.toNat ≤ value) (high : value ≤ greatest.toNat) :
    feed ⟨some ⟨owed + 1, least, greatest, bits⟩, read⟩ (UInt8.ofNat value) =
      ⟨some ⟨owed, 0x80, 0xBF, bits * 64 + (value - 0x80)⟩, read⟩ := by
  have fits : value < 256 := Nat.lt_of_le_of_lt high greatest.toNat_lt
  have byteValue : (UInt8.ofNat value).toNat = value := by
    rw [UInt8.toNat_ofNat', Nat.mod_eq_of_lt fits]
  simp [feed, UInt8.le_iff_toNat_le, byteValue, low, high]

/-- The last byte in the wanted range completes the character that has begun. -/
theorem feed_last
    {bits value : Nat} {least greatest : UInt8}
    {read : List (Option Char)}
    (low : least.toNat ≤ value) (high : value ≤ greatest.toNat) :
    feed ⟨some ⟨0, least, greatest, bits⟩, read⟩ (UInt8.ofNat value) =
      ⟨none, some (Char.ofNat (bits * 64 + (value - 0x80))) :: read⟩ := by
  have fits : value < 256 := Nat.lt_of_le_of_lt high greatest.toNat_lt
  have byteValue : (UInt8.ofNat value).toNat = value := by
    rw [UInt8.toNat_ofNat', Nat.mod_eq_of_lt fits]
  simp [feed, UInt8.le_iff_toNat_le, byteValue, low, high]

/-- A byte that begins a longer character. -/
theorem feed_none
    {byte : UInt8} {unfinished : Unfinished} {read : List (Option Char)}
    (begins : firstByte byte = .begins unfinished) :
    feed ⟨none, read⟩ byte = ⟨some unfinished, read⟩ := by
  simp only [feed, begin, begins]

end Decoder

/-- Six bits with the mark of a further byte lie in the range of further bytes. -/
theorem low_continuation (value : Nat) :
    (0x80 : UInt8).toNat ≤ value % 0x40 + 0x80 :=
  Nat.le_add_left _ _

theorem high_continuation (value : Nat) :
    value % 0x40 + 0x80 ≤ (0xBF : UInt8).toNat := by
  simp only [UInt8.reduceToNat]
  omega

theorem firstByte_ofNat
    {value : Nat} (fits : value < 256) :
    firstByte (UInt8.ofNat value) =
      if value < 0x80 then .complete (Char.ofNat value)
      else if value < 0xC2 then .malformed
      else if value < 0xE0 then .begins ⟨0, 0x80, 0xBF, value - 0xC0⟩
      else if value = 0xE0 then .begins ⟨1, 0xA0, 0xBF, 0⟩
      else if value = 0xED then .begins ⟨1, 0x80, 0x9F, 0xD⟩
      else if value < 0xF0 then .begins ⟨1, 0x80, 0xBF, value - 0xE0⟩
      else if value = 0xF0 then .begins ⟨2, 0x90, 0xBF, 0⟩
      else if value < 0xF4 then .begins ⟨2, 0x80, 0xBF, value - 0xF0⟩
      else if value = 0xF4 then .begins ⟨2, 0x80, 0x8F, 4⟩
      else .malformed := by
  have byteValue : (UInt8.ofNat value).toNat = value := by
    rw [UInt8.toNat_ofNat', Nat.mod_eq_of_lt fits]
  rw [firstByte, byteValue]

/-- The first byte of a character of two bytes. -/
theorem firstByte_of_two
    (value : Nat) (low : 0xC2 ≤ value) (high : value < 0xE0) :
    firstByte (UInt8.ofNat value) =
      .begins ⟨0, 0x80, 0xBF, value - 0xC0⟩ := by
  rw [firstByte_ofNat (by omega), if_neg (by omega), if_neg (by omega),
    if_pos high]

/-- The first byte of a character of three bytes narrows the range of the second one: neither
shorter characters nor surrogates may be written in this way. -/
theorem firstByte_of_three
    (value : Nat) (low : 0xE0 ≤ value) (high : value < 0xF0) :
    ∃ least greatest : UInt8,
      firstByte (UInt8.ofNat value) =
          .begins ⟨1, least, greatest, value - 0xE0⟩ ∧
        least.toNat = (if value = 0xE0 then 0xA0 else 0x80) ∧
        greatest.toNat = if value = 0xED then 0x9F else 0xBF := by
  rw [firstByte_ofNat (by omega), if_neg (by omega), if_neg (by omega),
    if_neg (by omega)]
  by_cases first : value = 0xE0
  · subst first
    exact ⟨0xA0, 0xBF, rfl, rfl, rfl⟩
  by_cases surrogates : value = 0xED
  · subst surrogates
    exact ⟨0x80, 0x9F, rfl, rfl, rfl⟩
  rw [if_neg first, if_neg surrogates, if_pos high]
  exact
    ⟨0x80, 0xBF, rfl, by rw [if_neg first]; rfl,
      by rw [if_neg surrogates]; rfl⟩

/-- The first byte of a character of four bytes narrows the range of the second one: neither
shorter characters nor numbers beyond the last character may be written in this way. -/
theorem firstByte_of_four
    (value : Nat) (low : 0xF0 ≤ value) (high : value ≤ 0xF4) :
    ∃ least greatest : UInt8,
      firstByte (UInt8.ofNat value) =
          .begins ⟨2, least, greatest, value - 0xF0⟩ ∧
        least.toNat = (if value = 0xF0 then 0x90 else 0x80) ∧
        greatest.toNat = if value = 0xF4 then 0x8F else 0xBF := by
  rw [firstByte_ofNat (by omega), if_neg (by omega), if_neg (by omega),
    if_neg (by omega), if_neg (by omega), if_neg (by omega),
    if_neg (by omega)]
  by_cases first : value = 0xF0
  · subst first
    exact ⟨0x90, 0xBF, rfl, rfl, rfl⟩
  by_cases last : value = 0xF4
  · subst last
    exact ⟨0x80, 0x8F, rfl, rfl, rfl⟩
  rw [if_neg first, if_pos (by omega)]
  exact
    ⟨0x80, 0xBF, rfl, by rw [if_neg first]; rfl,
      by rw [if_neg last]; rfl⟩

/-- The machine takes the bytes of one character as this character. -/
theorem foldl_feed_utf8EncodeChar
    (character : Char) (read : List (Option Char)) :
    (String.utf8EncodeChar character).foldl Decoder.feed ⟨none, read⟩ =
      ⟨none, some character :: read⟩ := by
  have valid :
      character.val.toNat < 0xD800 ∨
        0xDFFF < character.val.toNat ∧ character.val.toNat < 0x110000 := by
    simpa [UInt32.isValidChar, Nat.isValidChar] using character.valid
  have same : Char.ofNat character.val.toNat = character :=
    Char.ofNat_toNat character
  unfold String.utf8EncodeChar
  generalize character.val.toNat = value at valid same
  dsimp only
  split
  · next one =>
      simp only [List.foldl_cons, List.foldl_nil, Decoder.feed,
        Decoder.begin, firstByte_ofNat (show value < 256 by omega),
        if_pos (show value < 0x80 by omega), same]
  split
  · next two =>
      have first :=
        firstByte_of_two (value / 64 % 0x20 + 0xC0)
          (by omega) (by omega)
      have bits :
          (value / 64 % 0x20 + 0xC0 - 0xC0) * 64 +
            (value % 0x40 + 0x80 - 0x80) = value := by
        omega
      simp only [List.foldl_cons, List.foldl_nil]
      rw [Decoder.feed_none first,
        Decoder.feed_last (low_continuation value)
          (high_continuation value),
        bits, same]
  split
  · next three =>
      obtain ⟨least, greatest, first, leastIs, greatestIs⟩ :=
        firstByte_of_three (value / 4096 % 0x10 + 0xE0)
          (by omega) (by omega)
      have low : least.toNat ≤ value / 64 % 0x40 + 0x80 := by
        rw [leastIs]
        split <;> omega
      have high : value / 64 % 0x40 + 0x80 ≤ greatest.toNat := by
        rw [greatestIs]
        split <;> omega
      have bits :
          ((value / 4096 % 0x10 + 0xE0 - 0xE0) * 64 +
              (value / 64 % 0x40 + 0x80 - 0x80)) * 64 +
            (value % 0x40 + 0x80 - 0x80) = value := by
        omega
      simp only [List.foldl_cons, List.foldl_nil]
      rw [Decoder.feed_none first, Decoder.feed_next low high,
        Decoder.feed_last (low_continuation value)
          (high_continuation value),
        bits, same]
  · next four =>
      obtain ⟨least, greatest, first, leastIs, greatestIs⟩ :=
        firstByte_of_four (value / 262144 % 0x08 + 0xF0)
          (by omega) (by omega)
      have low : least.toNat ≤ value / 4096 % 0x40 + 0x80 := by
        rw [leastIs]
        split <;> omega
      have high : value / 4096 % 0x40 + 0x80 ≤ greatest.toNat := by
        rw [greatestIs]
        split <;> omega
      have bits :
          (((value / 262144 % 0x08 + 0xF0 - 0xF0) * 64 +
                (value / 4096 % 0x40 + 0x80 - 0x80)) * 64 +
              (value / 64 % 0x40 + 0x80 - 0x80)) * 64 +
            (value % 0x40 + 0x80 - 0x80) = value := by
        omega
      simp only [List.foldl_cons, List.foldl_nil]
      rw [Decoder.feed_none first, Decoder.feed_next low high,
        Decoder.feed_next (low_continuation (value / 64))
          (high_continuation (value / 64)),
        Decoder.feed_last (low_continuation value)
          (high_continuation value),
        bits, same]

/-- The bytes of a text are taken as its characters. -/
theorem foldl_feed_encode
    (characters : List Char) (read : List (Option Char)) :
    (encode characters).foldl Decoder.feed ⟨none, read⟩ =
      ⟨none, (characters.map some).reverse ++ read⟩ := by
  induction characters generalizing read with
  | nil => rfl
  | cons character rest ih =>
      rw [encode_cons, List.foldl_append, foldl_feed_utf8EncodeChar, ih]
      simp

/-- The bytes of a text are well formed and stand for the text. -/
@[simp]
theorem decode?_encode (characters : List Char) :
    decode? (encode characters) = some characters := by
  have stretches :
      decodeStretches (encode characters) = characters.map some := by
    rw [decodeStretches, foldl_feed_encode]
    simp [Decoder.finish]
  rw [decode?, stretches]
  clear stretches
  induction characters with
  | nil => rfl
  | cons character rest ih => simp [List.mapM_cons, ih]

theorem encode_injective : Function.Injective encode := by
  intro left right same
  have decoded := congrArg decode? same
  simpa using decoded

/-- The last bytes of a character, of six bits each. -/
def furtherBytes : (count value : Nat) → Bytes
  | 0, _ => []
  | count + 1, value =>
    UInt8.ofNat (value / 64 ^ count % 64 + 0x80) :: furtherBytes count value

/-- Some bytes have been read of the character that has begun: whatever may follow, it becomes a
character that is written with these bytes first. -/
structure Unfinished.IsAfter (unfinished : Unfinished) (front : Bytes) : Prop where
  least_le : 0x80 ≤ unfinished.least.toNat
  le_greatest : unfinished.greatest.toNat ≤ 0xBF
  goesOn : ∀ value,
    value / 64 ^ (unfinished.owed + 1) = unfinished.bits →
    unfinished.least.toNat ≤ value / 64 ^ unfinished.owed % 64 + 0x80 →
    value / 64 ^ unfinished.owed % 64 + 0x80 ≤ unfinished.greatest.toNat →
    value.isValidChar ∧
      String.utf8EncodeChar (Char.ofNat value) = front ++ furtherBytes (unfinished.owed + 1) value

theorem toNat_val_ofNat {value : Nat} (valid : value.isValidChar) :
    (Char.ofNat value).val.toNat = value := by
  rw [Char.ofNat, dif_pos valid]
  rfl

/-- How a character of several bytes is written, with as many further bytes as it has. -/
theorem utf8EncodeChar_of_long {value : Nat} (valid : value.isValidChar) (long : 0x80 ≤ value) :
    String.utf8EncodeChar (Char.ofNat value) =
      if value < 0x800 then UInt8.ofNat (value / 64 ^ 1 + 0xC0) :: furtherBytes 1 value
      else if value < 0x10000 then UInt8.ofNat (value / 64 ^ 2 + 0xE0) :: furtherBytes 2 value
      else UInt8.ofNat (value / 64 ^ 3 + 0xF0) :: furtherBytes 3 value := by
  have most : value < 0x110000 := by
    simp only [Nat.isValidChar] at valid
    omega
  simp only [String.utf8EncodeChar, toNat_val_ofNat valid, furtherBytes]
  rw [if_neg (by omega)]
  split
  · rw [if_pos (by omega), Nat.mod_eq_of_lt (by omega)]
    simp
  split
  · rw [if_neg (by omega), if_pos (by omega), Nat.mod_eq_of_lt (by omega)]
    simp
  · rw [if_neg (by omega), if_neg (by omega), Nat.mod_eq_of_lt (by omega)]
    simp

/-- A byte that begins a longer character is the first byte of what this may become. -/
theorem isAfter_of_firstByte
    {byte : UInt8} {unfinished : Unfinished}
    (begins : firstByte byte = .begins unfinished) :
    unfinished.IsAfter [byte] := by
  have written {lead rest : Nat} (isByte : rest + lead = byte.toNat) :
      UInt8.ofNat (rest + lead) = byte := by
    rw [isByte, UInt8.ofNat_toNat]
  unfold firstByte at begins
  dsimp only at begins
  repeat' split at begins
  all_goals cases begins
  all_goals
    refine ⟨by simp, by simp, fun value bits low high => ?_⟩
    simp only [UInt8.reduceToNat] at bits low high
    have valid : value.isValidChar := by
      simp only [Nat.isValidChar]
      omega
    refine ⟨valid, ?_⟩
    rw [utf8EncodeChar_of_long valid (by omega)]
  · rw [if_pos (by omega), written (by omega), List.singleton_append]
  iterate 3
    rw [if_neg (by omega), if_pos (by omega), written (by omega), List.singleton_append]
  iterate 3
    rw [if_neg (by omega), if_neg (by omega), written (by omega), List.singleton_append]

/-- The next byte of the character that has begun is the next one of what this may become. -/
theorem Unfinished.IsAfter.next
    {owed bits : Nat} {least greatest byte : UInt8} {front : Bytes}
    (after : Unfinished.IsAfter ⟨owed + 1, least, greatest, bits⟩ front)
    (low : least ≤ byte) (high : byte ≤ greatest) :
    Unfinished.IsAfter ⟨owed, 0x80, 0xBF, bits * 64 + (byte.toNat - 0x80)⟩
      (front ++ [byte]) := by
  obtain ⟨leastLarge, greatestSmall, goesOn⟩ := after
  rw [UInt8.le_iff_toNat_le] at low high
  dsimp only at leastLarge greatestSmall goesOn
  refine ⟨Nat.le_refl _, Nat.le_refl _, fun value bitsAre _ _ => ?_⟩
  dsimp only at bitsAre
  have bitsBefore : value / 64 ^ (owed + 1 + 1) = bits := by
    rw [Nat.pow_succ, ← Nat.div_div_eq_div_mul, bitsAre]
    omega
  have isByte : value / 64 ^ (owed + 1) % 64 + 0x80 = byte.toNat := by
    omega
  obtain ⟨valid, written⟩ := goesOn value bitsBefore (by omega) (by omega)
  refine ⟨valid, ?_⟩
  rw [written, List.append_assoc, furtherBytes, isByte, UInt8.ofNat_toNat]
  rfl

/-- The last byte of the character that has begun completes it. -/
theorem Unfinished.IsAfter.last
    {bits : Nat} {least greatest byte : UInt8} {front : Bytes}
    (after : Unfinished.IsAfter ⟨0, least, greatest, bits⟩ front)
    (low : least ≤ byte) (high : byte ≤ greatest) :
    String.utf8EncodeChar (Char.ofNat (bits * 64 + (byte.toNat - 0x80))) = front ++ [byte] := by
  obtain ⟨leastLarge, greatestSmall, goesOn⟩ := after
  rw [UInt8.le_iff_toNat_le] at low high
  dsimp only at leastLarge greatestSmall goesOn
  have isByte : (bits * 64 + (byte.toNat - 0x80)) / 64 ^ 0 % 64 + 0x80 = byte.toNat := by
    omega
  obtain ⟨_, written⟩ :=
    goesOn (bits * 64 + (byte.toNat - 0x80)) (by omega) (by omega) (by omega)
  rw [written, furtherBytes, furtherBytes, isByte, UInt8.ofNat_toNat]

/-- A byte that is a character on its own is an ASCII character. -/
theorem eq_of_firstByte_complete
    {byte : UInt8} {character : Char}
    (complete : firstByte byte = .complete character) :
    [byte] = String.utf8EncodeChar character := by
  unfold firstByte at complete
  dsimp only at complete
  split at complete
  · next ascii =>
      cases complete
      have valid : Nat.isValidChar byte.toNat := Or.inl (by omega)
      have value : (Char.ofNat byte.toNat).toNat = byte.toNat := toNat_val_ofNat valid
      rw [utf8EncodeChar_of_ascii (by omega), value, UInt8.ofNat_toNat]
  all_goals
    repeat' split at complete
    all_goals cases complete

namespace Decoder

/-- What has been read stays read. -/
theorem exists_finish_foldl_feed
    (decoder : Decoder) (bytes : Bytes) :
    ∃ more, (bytes.foldl feed decoder).finish = decoder.read.reverse ++ more := by
  induction bytes generalizing decoder with
  | nil =>
      rw [List.foldl_nil, finish]
      split
      · exact ⟨[], by simp⟩
      · exact ⟨[none], by simp⟩
  | cons byte bytes ih =>
      have fed : ∃ added, (feed decoder byte).read = added ++ decoder.read := by
        unfold feed begin
        repeat' split
        all_goals first
          | exact ⟨[], rfl⟩
          | exact ⟨[_], rfl⟩
          | exact ⟨[_, _], rfl⟩
      obtain ⟨added, readIs⟩ := fed
      obtain ⟨more, finishIs⟩ := ih (feed decoder byte)
      refine ⟨added.reverse ++ more, ?_⟩
      rw [List.foldl_cons, finishIs, readIs, List.reverse_append, List.append_assoc]

/-- Where a malformed stretch has been read, the bytes do not stand for characters. -/
theorem finish_foldl_feed_ne_of_malformed
    {decoder : Decoder} {read : List (Option Char)}
    (added : List (Option Char)) (readIs : decoder.read = added ++ none :: read)
    (characters : List Char) (bytes : Bytes) :
    (bytes.foldl feed decoder).finish ≠ read.reverse ++ characters.map some := by
  intro reads
  obtain ⟨more, finishIs⟩ := exists_finish_foldl_feed decoder bytes
  rw [reads, readIs, List.reverse_append, List.reverse_cons, List.append_assoc,
    List.append_assoc, List.append_cancel_left_eq] at finishIs
  cases characters with
  | nil => cases finishIs
  | cons character others => cases (List.cons.inj finishIs).1

/-- What is read next is the first of the characters that are read in the end. -/
theorem exists_eq_cons_of_finish_foldl_feed
    {next : Char} {read : List (Option Char)} {characters : List Char} {bytes : Bytes}
    (reads :
      (bytes.foldl feed ⟨none, some next :: read⟩).finish =
        read.reverse ++ characters.map some) :
    ∃ others,
      characters = next :: others ∧
        (bytes.foldl feed ⟨none, some next :: read⟩).finish =
          (some next :: read).reverse ++ others.map some := by
  obtain ⟨more, finishIs⟩ := exists_finish_foldl_feed ⟨none, some next :: read⟩ bytes
  rw [reads, List.reverse_cons, List.append_assoc, List.append_cancel_left_eq] at finishIs
  cases characters with
  | nil => cases finishIs
  | cons character others =>
      obtain ⟨same, -⟩ := List.cons.inj finishIs
      cases same
      exact ⟨others, rfl, by simpa using reads⟩

end Decoder

/-- The bytes that have been read of the character that has begun, if one has. -/
def IsPending (front : Bytes) : Option Unfinished → Prop
  | none => front = []
  | some unfinished => unfinished.IsAfter front

/-- Where nothing but characters is read, the bytes are those of the characters.  The bytes of the
character that has begun are kept in front of the ones that are still to be read. -/
theorem eq_encode_of_finish_foldl_feed
    {front : Bytes} {unfinished : Option Unfinished} (pending : IsPending front unfinished)
    {read : List (Option Char)} {characters : List Char} {bytes : Bytes}
    (reads :
      (bytes.foldl Decoder.feed ⟨unfinished, read⟩).finish =
        read.reverse ++ characters.map some) :
    front ++ bytes = encode characters := by
  induction bytes generalizing front unfinished read characters with
  | nil =>
      cases unfinished with
      | none =>
          obtain rfl : front = [] := pending
          have empty : characters = [] := by
            simpa [Decoder.finish] using reads
          rw [empty]
          rfl
      | some begun =>
          exact absurd reads
            (@Decoder.finish_foldl_feed_ne_of_malformed ⟨none, none :: read⟩ read [] rfl
              characters [])
  | cons byte bytes ih =>
      have malformed := @Decoder.finish_foldl_feed_ne_of_malformed
      have complete {character : Char} {first : Bytes}
          (written : first = String.utf8EncodeChar character)
          (finishes :
            (bytes.foldl Decoder.feed ⟨none, some character :: read⟩).finish =
              read.reverse ++ characters.map some) :
          first ++ bytes = encode characters := by
        obtain ⟨others, rfl, rest⟩ := Decoder.exists_eq_cons_of_finish_foldl_feed finishes
        rw [encode_cons, written, ← @ih [] none rfl _ others rest]
        rfl
      rw [List.foldl_cons] at reads
      cases unfinished with
      | none =>
          obtain rfl : front = [] := pending
          dsimp only [Decoder.feed, Decoder.begin] at reads
          cases first : firstByte byte with
          | complete character =>
              rw [first] at reads
              exact complete (eq_of_firstByte_complete first) reads
          | begins begun =>
              rw [first] at reads
              exact @ih _ (some begun) (isAfter_of_firstByte first) _ _ reads
          | malformed =>
              rw [first] at reads
              exact absurd reads (malformed [] rfl characters bytes)
      | some begun =>
          dsimp only [Decoder.feed] at reads
          split at reads
          · next inRange =>
              rw [Bool.and_eq_true, decide_eq_true_eq, decide_eq_true_eq] at inRange
              obtain ⟨low, high⟩ := inRange
              obtain ⟨owed, least, greatest, bits⟩ := begun
              rw [← List.singleton_append, ← List.append_assoc]
              cases owed with
              | zero => exact complete (pending.last low high).symm reads
              | succ owed => exact @ih _ (some _) (pending.next low high) _ _ reads
          · dsimp only [Decoder.begin] at reads
            cases first : firstByte byte with
            | complete character =>
                rw [first] at reads
                exact absurd reads (malformed [some character] rfl characters bytes)
            | begins begun =>
                rw [first] at reads
                exact absurd reads (malformed [] rfl characters bytes)
            | malformed =>
                rw [first] at reads
                exact absurd reads (malformed [none] rfl characters bytes)

/-- Where every stretch is a character, there is nothing malformed between the characters. -/
theorem eq_map_some_of_mapM_id
    {read : List (Option Char)} {characters : List Char}
    (decodes : read.mapM id = some characters) :
    read = characters.map some := by
  induction read generalizing characters with
  | nil =>
      cases decodes
      rfl
  | cons stretch read ih =>
      cases stretch with
      | none => simp [List.mapM_cons] at decodes
      | some character =>
          simp only [List.mapM_cons, id_eq, Option.bind_eq_bind, Option.bind_some,
            Option.pure_def, Option.bind_eq_some_iff, Option.some.injEq] at decodes
          obtain ⟨others, rest, rfl⟩ := decodes
          rw [List.map_cons, ih rest]

/-- Well-formed bytes are those of the text that they stand for. -/
theorem decode?_eq_some_iff {bytes : Bytes} {characters : List Char} :
    decode? bytes = some characters ↔ bytes = encode characters := by
  constructor
  · intro decodes
    have stretches : decodeStretches bytes = characters.map some :=
      eq_map_some_of_mapM_id decodes
    exact @eq_encode_of_finish_foldl_feed [] none rfl [] characters bytes stretches
  · rintro rfl
    exact decode?_encode characters

end SourcePreview.Text
