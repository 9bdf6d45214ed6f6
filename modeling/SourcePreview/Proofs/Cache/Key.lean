import SourcePreview.Cache.Key
import SourcePreview.Proofs.FileTree.Locations
import SourcePreview.Proofs.Text.Cutting
import Mathlib.Algebra.Order.Group.Unbundled.Int
import Mathlib.Tactic.NormNum
import Mathlib.Tactic.Ring

/-!
# Keys and what they are made of

The material of a key can be taken apart again: the length in front of each field says where the
field ends.  So different fields give different material, as long as the length of every field
fits into its eight bytes and the time into its sixteen.  The written form of a key determines
the key and is the plain name of a file; every text of that form is the written form of one key.
-/

namespace SourcePreview.Key

@[simp]
theorem length_lowBytes (count : Nat) (value : Int) :
    (lowBytes count value).length = count := by
  induction count generalizing value with
  | zero => rfl
  | succ count ih => simp [lowBytes, ih]

/-- Numbers with the same low bytes differ by a multiple of what the bytes can count. -/
theorem dvd_sub_of_lowBytes_eq
    {count : Nat} {left right : Int}
    (same : lowBytes count left = lowBytes count right) :
    (256 : Int) ^ count ∣ left - right := by
  induction count generalizing left right with
  | zero => simp
  | succ count ih =>
      obtain ⟨sameByte, sameRest⟩ := List.cons.inj same
      have sameLow : left % 256 = right % 256 := by
        have values := congrArg UInt8.toNat sameByte
        simp only [UInt8.toNat_ofNat'] at values
        omega
      obtain ⟨factor, multiple⟩ := ih sameRest
      refine ⟨factor, ?_⟩
      calc
        left - right = 256 * (left / 256 - right / 256) := by omega
        _ = 256 * (256 ^ count * factor) := by rw [multiple]
        _ = 256 ^ (count + 1) * factor := by ring

/-- Numbers that are closer than the bytes can count are determined by the bytes. -/
theorem eq_of_lowBytes_eq
    {count : Nat} {left right : Int}
    (same : lowBytes count left = lowBytes count right)
    (above : left - right < 256 ^ count) (below : right - left < 256 ^ count) :
    left = right := by
  have close : |left - right| < 256 ^ count :=
    abs_lt.mpr ⟨by omega, above⟩
  have none := Int.eq_zero_of_abs_lt_dvd (dvd_sub_of_lowBytes_eq same) close
  omega

/-- A field and what follows it can be told apart. -/
theorem field_append_inj
    {left right leftRest rightRest : Bytes}
    (leftShort : left.length < 2 ^ 64) (rightShort : right.length < 2 ^ 64)
    (same : field left ++ leftRest = field right ++ rightRest) :
    left = right ∧ leftRest = rightRest := by
  rw [field, field, List.append_assoc, List.append_assoc] at same
  obtain ⟨sameLengthBytes, sameRest⟩ := List.append_inj same (by simp)
  have sameLength : (left.length : Int) = right.length :=
    eq_of_lowBytes_eq sameLengthBytes (by norm_num; omega) (by norm_num; omega)
  exact List.append_inj sameRest (by omega)

/-- The nanoseconds since the beginning of 1970 are the same whether they are counted from it or up
to it. -/
@[simp]
theorem signedNanoseconds_eq (time : Timestamp) : signedNanoseconds time = time.nanoseconds := by
  have split := Int.fmod_add_mul_fdiv time.nanoseconds Timestamp.perSecond
  have least : 0 ≤ time.nanoseconds.fmod Timestamp.perSecond :=
    Int.fmod_nonneg_of_pos _ (by decide)
  have small : time.nanoseconds.fmod Timestamp.perSecond < Timestamp.perSecond :=
    Int.fmod_lt_of_pos _ (by decide)
  have second : Timestamp.perSecond = 1000000000 := rfl
  rw [signedNanoseconds, Timestamp.sinceEpoch, Timestamp.seconds, Timestamp.fraction]
  rw [second] at split least small ⊢
  split_ifs
  all_goals
    dsimp only [Duration.inNanoseconds, Timestamp.perSecond]
    omega

/-- Whether the fields of a key fit into the room for their lengths and the time into its
bytes. -/
structure Fits (path : Path) (modified : Timestamp) (themeId : String) : Prop where
  path : path.bytes.length < 2 ^ 64
  earliest : -2 ^ 127 ≤ modified.nanoseconds
  latest : modified.nanoseconds < 2 ^ 127
  themeId : (Text.encode themeId.toList).length < 2 ^ 64

/-- Different fields give different material. -/
theorem material_inj
    {path otherPath : Path} {modified otherModified : Timestamp}
    {themeId otherThemeId : String} {language otherLanguage : Language}
    (fits : Fits path modified themeId)
    (otherFits : Fits otherPath otherModified otherThemeId)
    (same :
      material path modified themeId language =
        material otherPath otherModified otherThemeId otherLanguage) :
    path = otherPath ∧ modified = otherModified ∧ themeId = otherThemeId ∧
      language = otherLanguage := by
  simp only [material, signedNanoseconds_eq, List.append_assoc] at same
  obtain ⟨samePath, same⟩ :=
    field_append_inj fits.path otherFits.path (List.append_cancel_left same)
  obtain ⟨sameTime, same⟩ := field_append_inj (by simp) (by simp) same
  obtain ⟨sameTheme, same⟩ :=
    field_append_inj fits.themeId otherFits.themeId same
  have short (language : Language) :
      (Text.encode language.id.toList).length < 2 ^ 64 := by
    cases language <;> decide
  obtain ⟨sameLanguage, _⟩ :=
    field_append_inj (short language) (short otherLanguage)
      (by rwa [List.append_nil, List.append_nil])
  have sameNanoseconds : modified.nanoseconds = otherModified.nanoseconds := by
    have earliest := fits.earliest
    have latest := fits.latest
    have otherEarliest := otherFits.earliest
    have otherLatest := otherFits.latest
    refine eq_of_lowBytes_eq sameTime ?_ ?_ <;> norm_num at * <;> omega
  refine ⟨?_, ?_, ?_, ?_⟩
  · cases path
    cases otherPath
    exact congrArg Path.mk samePath
  · cases modified
    cases otherModified
    exact congrArg Timestamp.mk sameNanoseconds
  · exact String.toList_injective (Text.encode_injective sameTheme)
  · have sameId : language.id = otherLanguage.id :=
      String.toList_injective (Text.encode_injective sameLanguage)
    have known := Language.ofId?_id language
    rw [sameId, Language.ofId?_id] at known
    exact (Option.some.inj known).symm

/-- The bytes of the written form of a key, which are the name of its entry file. -/
def fileName (key : Key) : Bytes :=
  Text.encode key.name.toList

theorem lowerHexDigit_of_lt :
    ∀ value < 16,
      (Text.lowerHexDigit value).toNat < 128 ∧
        isNameByte (UInt8.ofNat (Text.lowerHexDigit value).toNat) = true := by
  decide

theorem lowerHexDigit_inj :
    ∀ left < 16, ∀ right < 16,
      Text.lowerHexDigit left = Text.lowerHexDigit right → left = right := by
  decide

/-- A byte is written as two digits. -/
theorem encode_lowerHex (byte : UInt8) :
    Text.encode (Text.lowerHex byte) =
      [UInt8.ofNat (Text.lowerHexDigit (byte.toNat / 16)).toNat,
        UInt8.ofNat (Text.lowerHexDigit (byte.toNat % 16)).toNat] := by
  have small := byte.toNat_lt
  have high := lowerHexDigit_of_lt (byte.toNat / 16) (by omega)
  have low := lowerHexDigit_of_lt (byte.toNat % 16) (by omega)
  simp [Text.lowerHex, Text.utf8EncodeChar_of_ascii high.1,
    Text.utf8EncodeChar_of_ascii low.1]

theorem lowerHex_injective : Function.Injective Text.lowerHex := by
  intro left right same
  have leftSmall := left.toNat_lt
  have rightSmall := right.toNat_lt
  simp only [Text.lowerHex, List.cons.injEq, and_true] at same
  have high :=
    lowerHexDigit_inj _ (by omega) _ (by omega) same.1
  have low :=
    lowerHexDigit_inj _ (by omega) _ (by omega) same.2
  exact UInt8.toNat_inj.mp (by omega)

/-- The written form of bytes has two digits for each byte. -/
theorem encode_flatMap_lowerHex (bytes : Bytes) :
    (Text.encode (bytes.flatMap Text.lowerHex)).length = 2 * bytes.length ∧
      (Text.encode (bytes.flatMap Text.lowerHex)).all isNameByte = true := by
  induction bytes with
  | nil => exact ⟨rfl, rfl⟩
  | cons byte bytes ih =>
      have small := byte.toNat_lt
      have high := lowerHexDigit_of_lt (byte.toNat / 16) (by omega)
      have low := lowerHexDigit_of_lt (byte.toNat % 16) (by omega)
      rw [List.flatMap_cons, Text.encode_append, encode_lowerHex]
      refine ⟨?_, ?_⟩
      · simp only [List.length_append, List.length_cons, List.length_nil,
          ih.1]
        omega
      · simp only [List.all_append, List.all_cons, List.all_nil, high.2,
          low.2, ih.2, Bool.and_self]

theorem isNameBytes_fileName (key : Key) : isNameBytes key.fileName = true := by
  obtain ⟨length, all⟩ := encode_flatMap_lowerHex key.bytes
  simp only [isNameBytes, fileName, name, String.toList_ofList, length, all,
    key.length_bytes, nameLength]
  rfl

@[simp]
theorem isName_name (key : Key) : isName key.name = true :=
  isNameBytes_fileName key

/-- The digits of bytes determine the bytes. -/
theorem flatMap_lowerHex_injective :
    Function.Injective fun bytes : Bytes => bytes.flatMap Text.lowerHex := by
  intro left right same
  dsimp only at same
  induction left generalizing right with
  | nil =>
      cases right with
      | nil => rfl
      | cons byte right => simp [Text.lowerHex] at same
  | cons byte left ih =>
      cases right with
      | nil => simp [Text.lowerHex] at same
      | cons other right =>
          rw [List.flatMap_cons, List.flatMap_cons] at same
          obtain ⟨sameByte, sameRest⟩ := List.append_inj same rfl
          rw [lowerHex_injective sameByte, ih sameRest]

/-- The written form of a key determines the key. -/
theorem fileName_injective : Function.Injective fileName := by
  intro left right same
  have sameText := Text.encode_injective same
  rw [name, name, String.toList_ofList, String.toList_ofList] at sameText
  cases left
  cases right
  simp only [mk.injEq]
  exact flatMap_lowerHex_injective sameText

/-- Text of the form of a written key is a plain name. -/
theorem isPlainName_of_isName
    {name : String} (isName : Key.isName name = true) :
    Path.IsPlainName (Text.encode name.toList) := by
  rw [Key.isName, isNameBytes, Bool.and_eq_true, beq_iff_eq] at isName
  obtain ⟨length, all⟩ := isName
  refine
    ⟨?_, fun slash => absurd (List.all_eq_true.mp all _ slash) (by decide)⟩
  rw [Path.Component.ofPiece?, if_neg, if_neg]
  · intro dots
    rw [dots] at length
    cases length
  · rintro (empty | single)
    · rw [empty] at length
      cases length
    · rw [single] at length
      cases length

/-- The name of an entry file consists of digits. -/
theorem isNameByte_of_mem_fileName
    {key : Key} {byte : UInt8} (member : byte ∈ key.fileName) :
    isNameByte byte = true := by
  have digits := key.isNameBytes_fileName
  rw [isNameBytes, Bool.and_eq_true] at digits
  exact List.all_eq_true.mp digits.2 byte member

theorem zero_not_mem_fileName (key : Key) : 0 ∉ key.fileName := by
  intro zero
  exact absurd (isNameByte_of_mem_fileName zero) (by decide)

theorem length_fileName (key : Key) : key.fileName.length = nameLength := by
  have digits := key.isNameBytes_fileName
  rw [isNameBytes, Bool.and_eq_true, beq_iff_eq] at digits
  exact digits.1

/-- A digit has a value and is written as it was read. -/
theorem exists_hexValue?_of_isNameByte
    {byte : UInt8} (digit : isNameByte byte = true) :
    ∃ value < 16,
      Text.hexValue? byte = some value ∧
        Text.encode [Text.lowerHexDigit value] = [byte] := by
  have known :
      ∀ value < 256, isNameByte (UInt8.ofNat value) = true →
        ∃ digit < 16,
          Text.hexValue? (UInt8.ofNat value) = some digit ∧
            Text.encode [Text.lowerHexDigit digit] = [UInt8.ofNat value] := by
    decide +kernel
  have found := known byte.toNat byte.toNat_lt
  rw [UInt8.ofNat_toNat] at found
  exact found digit

/-- Pairs of digits are the written form of bytes. -/
theorem exists_encode_flatMap_lowerHex
    {count : Nat} {digits : Bytes} (length : digits.length = 2 * count)
    (all : digits.all isNameByte = true) :
    ∃ bytes : Bytes,
      bytes.length = count ∧ Text.encode (bytes.flatMap Text.lowerHex) = digits := by
  induction count generalizing digits with
  | zero =>
      rw [List.length_eq_zero_iff.mp length]
      exact ⟨[], rfl, rfl⟩
  | succ count ih =>
      match digits with
      | [] => simp at length
      | [_] => simp at length; omega
      | high :: low :: rest =>
          simp only [List.all_cons, Bool.and_eq_true] at all
          obtain ⟨highDigit, lowDigit, restDigits⟩ := all
          obtain ⟨left, leftSmall, -, leftWritten⟩ := exists_hexValue?_of_isNameByte highDigit
          obtain ⟨right, rightSmall, -, rightWritten⟩ := exists_hexValue?_of_isNameByte lowDigit
          obtain ⟨bytes, count, written⟩ := ih (by simpa [Nat.mul_succ] using length) restDigits
          refine ⟨UInt8.ofNat (left * 16 + right) :: bytes, by simp [count], ?_⟩
          have value : (UInt8.ofNat (left * 16 + right)).toNat = left * 16 + right := by
            rw [UInt8.toNat_ofNat', Nat.mod_eq_of_lt (by omega)]
          have highHalf : (left * 16 + right) / 16 = left := by omega
          have lowHalf : (left * 16 + right) % 16 = right := by omega
          rw [List.flatMap_cons, Text.encode_append, written, Text.lowerHex, value,
            highHalf, lowHalf, ← List.singleton_append, Text.encode_append,
            leftWritten, rightWritten]
          rfl

/-- A byte is read from its two digits. -/
theorem hexByte?_lowerHex (byte : UInt8) :
    Text.hexByte? (Text.encode (Text.lowerHex byte)) = some byte := by
  have known :
      ∀ value < 16,
        UInt8.ofNat (Text.lowerHexDigit value).toNat ≠ 0x2B ∧
          Text.hexValue? (UInt8.ofNat (Text.lowerHexDigit value).toNat) = some value := by
    decide
  have small := byte.toNat_lt
  obtain ⟨noPlus, highValue⟩ := known (byte.toNat / 16) (by omega)
  obtain ⟨-, lowValue⟩ := known (byte.toNat % 16) (by omega)
  have first : byte.toNat / 16 < UInt8.size := by
    rw [UInt8.size]
    omega
  have whole : byte.toNat / 16 * 16 + byte.toNat % 16 = byte.toNat := Nat.div_add_mod' ..
  rw [encode_lowerHex]
  simp [Text.hexByte?, Text.withHexDigit?, noPlus, highValue, lowValue, first, whole,
    byte.toNat_lt_size]

/-- The two digits of a byte are two bytes of a text. -/
theorem utf8ByteSize_append_lowerHex (passed : String) (byte : UInt8) :
    (passed ++ String.ofList (Text.lowerHex byte)).utf8ByteSize = passed.utf8ByteSize + 2 := by
  have single : ∀ value < 16, (Text.lowerHexDigit value).utf8Size = 1 := by decide
  have small := byte.toNat_lt
  have high := single (byte.toNat / 16) (by omega)
  have low := single (byte.toNat % 16) (by omega)
  simp only [String.utf8ByteSize_append, Text.lowerHex, String.ofList_cons, String.ofList_nil,
    String.utf8ByteSize_singleton, String.utf8ByteSize_empty, high, low]

/-- Bytes are read from the place in a text where their digits begin.  The text is cut between two
digits each time. -/
theorem readBytes_of_eq_append
    {text passed : String} {bytes : Bytes}
    (parts : text = passed ++ String.ofList (bytes.flatMap Text.lowerHex)) :
    readBytes text passed.utf8ByteSize bytes.length = .ok bytes := by
  induction bytes generalizing passed with
  | nil => rfl
  | cons byte bytes ih =>
      rw [List.flatMap_cons, String.ofList_append, ← String.append_assoc] at parts
      have cut := Text.stretch?_of_eq_append parts
      have others := ih parts
      rw [utf8ByteSize_append_lowerHex] at cut others
      rw [List.length_cons, readBytes, cut]
      simp only [String.toList_ofList, hexByte?_lowerHex]
      rw [others]
      rfl

theorem name_injective : Function.Injective name := by
  intro left right same
  exact fileName_injective (by rw [fileName, same]; rfl)

/-- The written form of a key is read back. -/
@[simp]
theorem read_name (key : Key) : read key.name = .ok key := by
  have bytesRead : readBytes key.name 0 32 = .ok key.bytes := by
    have reads := @readBytes_of_eq_append key.name "" key.bytes (by rw [String.empty_append]; rfl)
    rwa [key.length_bytes] at reads
  rw [read, if_pos key.isName_name]
  split
  · next bytes reads =>
      rw [bytesRead] at reads
      cases reads
      rfl
  · next failure fails =>
      rw [bytesRead] at fails
      cases fails

/-- Text of the form of a written key is the written form of one. -/
theorem exists_name_eq_of_isName
    {name : String} (isName : Key.isName name = true) :
    ∃ key : Key, key.name = name := by
  rw [Key.isName, isNameBytes, Bool.and_eq_true, beq_iff_eq] at isName
  obtain ⟨bytes, length, written⟩ :=
    @exists_encode_flatMap_lowerHex 32 _ isName.1 isName.2
  refine ⟨⟨bytes, length⟩, ?_⟩
  rw [Key.name, Text.encode_injective written, String.ofList_toList]

/-- A key is read from its written form only, and no text is torn. -/
theorem read_eq (text : String) :
    (∃ key, text = key.name ∧ read text = .ok key) ∨
      isName text = false ∧ read text = .error .noName := by
  cases isName : Key.isName text with
  | true =>
      obtain ⟨key, rfl⟩ := exists_name_eq_of_isName isName
      exact .inl ⟨key, rfl, key.read_name⟩
  | false => exact .inr ⟨rfl, by rw [read, isName]; rfl⟩

theorem exists_ofName?_of_isName
    {name : String} (isName : Key.isName name = true) :
    ∃ key : Key, ofName? name = some key ∧ key.name = name := by
  obtain ⟨key, rfl⟩ := exists_name_eq_of_isName isName
  exact ⟨key, by rw [ofName?, read_name]; rfl, rfl⟩

theorem ofName?_of_not_isName {name : String} (isOther : ¬isName name = true) :
    ofName? name = none := by
  rw [ofName?, read, if_neg isOther]
  rfl

/-- The written form of a key is read back, and no other text is read as that key. -/
theorem ofName?_eq_some_iff {name : String} {key : Key} :
    ofName? name = some key ↔ name = key.name := by
  rcases read_eq name with ⟨other, rfl, reads⟩ | ⟨isOther, reads⟩
  · rw [ofName?, reads, name_injective.eq_iff]
    exact Option.some_inj
  · rw [ofName?, reads]
    refine ⟨nofun, ?_⟩
    rintro rfl
    rw [key.isName_name] at isOther
    cases isOther

/-- The bytes of a file name are read as the written form of a key only if they are its digits. -/
theorem decode?_eq_name_iff {bytes : Bytes} {key : Key} :
    Text.decode? bytes = some key.name.toList ↔ bytes = key.fileName :=
  Text.decode?_eq_some_iff

end SourcePreview.Key
