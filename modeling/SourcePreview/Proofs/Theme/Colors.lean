import SourcePreview.Proofs.Text.Utf8
import SourcePreview.Theme.Document

/-!
# Texts that spell colours

A colour is spelled, after any number of hashes, by three or four channels.  A channel is spelled by
two hexadecimal digits, high digit first, or by a plus sign and one digit.  Every text that is made
in this way is read as its colour, and every other text is refused.  So a text without plus signs is
read exactly if it has six or eight digits behind its hashes, and the written form of a colour is
read as the colour that covers all.
-/

namespace SourcePreview.Color

open Text

/-! ### Digits -/

/-- The hexadecimal digits by their values, in small and in capital letters. -/
def digitRows : List (List Char) :=
  ["0123456789abcdef".toList, "0123456789ABCDEF".toList]

/-- Whether a character is the hexadecimal digit of a value, in either case. -/
def IsDigit (digit : Char) (value : Nat) : Prop :=
  ∃ row ∈ digitRows, row[value]? = some digit

instance (digit : Char) (value : Nat) : Decidable (IsDigit digit value) :=
  List.decidableBEx _ digitRows

theorem IsDigit.lt {digit : Char} {value : Nat} (isDigit : IsDigit digit value) : value < 16 := by
  obtain ⟨row, member, found⟩ := isDigit
  have sixteen : ∀ row ∈ digitRows, row.length = 16 := by decide
  exact sixteen row member ▸ (List.getElem?_eq_some_iff.mp found).1

/-- A digit is written as one byte, which has its value. -/
theorem IsDigit.encode
    {digit : Char} {value : Nat} (isDigit : IsDigit digit value) :
    ∃ byte, Text.encode [digit] = [byte] ∧ hexValue? byte = some value := by
  have known :
      ∀ row ∈ digitRows, ∀ value < 16,
        row[value]?.all (fun digit =>
          digit.toNat < 128 ∧ hexValue? (UInt8.ofNat digit.toNat) = some value) = true := by
    decide +kernel
  have small := isDigit.lt
  obtain ⟨row, member, found⟩ := isDigit
  have listed := known row member value small
  rw [found, Option.all_some, decide_eq_true_eq] at listed
  obtain ⟨ascii, valued⟩ := listed
  refine ⟨UInt8.ofNat digit.toNat, ?_, valued⟩
  rw [encode_cons, encode_nil, List.append_nil, utf8EncodeChar_of_ascii ascii]

/-- A byte with a value is that of a digit. -/
theorem exists_isDigit_of_hexValue?
    {byte : UInt8} {value : Nat} (valued : hexValue? byte = some value) :
    ∃ digit, IsDigit digit value ∧ Text.encode [digit] = [byte] := by
  have known :
      ∀ point < 256, ∀ value ∈ hexValue? (UInt8.ofNat point),
        IsDigit (Char.ofNat point) value ∧
          Text.encode [Char.ofNat point] = [UInt8.ofNat point] := by
    decide +kernel
  have found := known byte.toNat byte.toNat_lt
  rw [UInt8.ofNat_toNat] at found
  exact ⟨_, found value valued⟩

/-! ### Channels -/

/-- Whether two digits spell a channel. -/
inductive IsPair : List Char → UInt8 → Prop where
  | digits {high low : Char} {left right : Nat}
      (isHigh : IsDigit high left) (isLow : IsDigit low right) :
      IsPair [high, low] (UInt8.ofNat (left * 16 + right))

/-- Whether two characters spell a channel. -/
inductive IsChannel : List Char → UInt8 → Prop where
  | pair {spelling : List Char} {value : UInt8} (isPair : IsPair spelling value) :
      IsChannel spelling value
  | signed {low : Char} {right : Nat} (isLow : IsDigit low right) :
      IsChannel ['+', low] (UInt8.ofNat right)

theorem IsChannel.isPair
    {spelling : List Char} {value : UInt8}
    (isChannel : IsChannel spelling value) (unsigned : '+' ∉ spelling) :
    IsPair spelling value := by
  cases isChannel with
  | pair isPair => exact isPair
  | signed => exact (unsigned (List.mem_cons_self ..)).elim

/-- A channel has the value of its two digits, or behind a plus sign that of the one digit. -/
theorem channel?_eq (high low : UInt8) :
    channel? high low =
      match hexValue? high, hexValue? low with
      | some left, some right => some (UInt8.ofNat (left * 16 + right))
      | none, some right => if high = 0x2B then some (UInt8.ofNat right) else none
      | _, none => none := by
  have noValue : hexValue? 0x2B = none := by decide
  by_cases plus : high = 0x2B
  · subst plus
    cases lowValue : hexValue? low with
    | none => simp [channel?, hexByte?, withHexDigit?, noValue, lowValue]
    | some right =>
        have small : right < UInt8.size := Nat.lt_trans (lt_of_hexValue? lowValue) (by decide)
        simp [channel?, hexByte?, withHexDigit?, noValue, lowValue, small]
  · cases highValue : hexValue? high with
    | none =>
        cases lowValue : hexValue? low with
        | none => simp [channel?, hexByte?, withHexDigit?, plus, highValue]
        | some right => simp [channel?, hexByte?, withHexDigit?, plus, highValue]
    | some left =>
        have leftSmall := lt_of_hexValue? highValue
        have first : left < UInt8.size := Nat.lt_trans leftSmall (by decide)
        cases lowValue : hexValue? low with
        | none => simp [channel?, hexByte?, withHexDigit?, plus, highValue, lowValue, first]
        | some right =>
            have rightSmall := lt_of_hexValue? lowValue
            have both : left * 16 + right < UInt8.size := by
              rw [UInt8.size]
              omega
            simp [channel?, hexByte?, withHexDigit?, plus, highValue, lowValue, first, both]

/-- The bytes of a spelled channel are read as the channel. -/
theorem IsChannel.exists_channel?
    {spelling : List Char} {value : UInt8} (isChannel : IsChannel spelling value) :
    ∃ high low, Text.encode spelling = [high, low] ∧ channel? high low = some value := by
  cases isChannel with
  | pair isPair =>
      obtain ⟨isHigh, isLow⟩ := isPair
      obtain ⟨high, highWritten, highValue⟩ := isHigh.encode
      obtain ⟨low, lowWritten, lowValue⟩ := isLow.encode
      refine ⟨high, low, ?_, by rw [channel?_eq, highValue, lowValue]⟩
      rw [← List.singleton_append, encode_append, highWritten, lowWritten]
      rfl
  | signed isLow =>
      obtain ⟨low, lowWritten, lowValue⟩ := isLow.encode
      have noDigit : hexValue? 0x2B = none := by decide
      refine ⟨0x2B, low, ?_, by simp [channel?_eq, noDigit, lowValue]⟩
      rw [← List.singleton_append, encode_append, lowWritten]
      rfl

/-- Bytes that are read as a channel are those of a spelled one. -/
theorem exists_isChannel_of_channel?
    {high low value : UInt8} (read : channel? high low = some value) :
    ∃ spelling, IsChannel spelling value ∧ Text.encode spelling = [high, low] := by
  rw [channel?_eq] at read
  split at read
  case h_1 left right highValue lowValue =>
    cases read
    obtain ⟨first, isHigh, firstWritten⟩ := exists_isDigit_of_hexValue? highValue
    obtain ⟨second, isLow, secondWritten⟩ := exists_isDigit_of_hexValue? lowValue
    refine ⟨[first, second], .pair (.digits isHigh isLow), ?_⟩
    rw [← List.singleton_append, encode_append, firstWritten, secondWritten]
    rfl
  case h_2 right _ lowValue =>
    split at read
    case isTrue isPlus =>
      cases read
      obtain ⟨second, isLow, secondWritten⟩ := exists_isDigit_of_hexValue? lowValue
      refine ⟨['+', second], .signed isLow, ?_⟩
      rw [← List.singleton_append, encode_append, secondWritten, isPlus]
      rfl
    case isFalse => cases read
  case h_3 => cases read

/-! ### Colours -/

/-- Whether channels that are spelled in some way spell a colour, in the order red, green, blue and
alpha.  A colour whose alpha is left out covers all. -/
inductive IsSpelled (channel : List Char → UInt8 → Prop) : List Char → Color → Prop where
  | solid {r g b : List Char} {red green blue : UInt8}
      (isRed : channel r red) (isGreen : channel g green) (isBlue : channel b blue) :
      IsSpelled channel (r ++ g ++ b) ⟨red, green, blue, 255⟩
  | withAlpha {r g b a : List Char} {red green blue alpha : UInt8}
      (isRed : channel r red) (isGreen : channel g green) (isBlue : channel b blue)
      (isAlpha : channel a alpha) :
      IsSpelled channel (r ++ g ++ b ++ a) ⟨red, green, blue, alpha⟩

theorem IsSpelled.imp
    {channel other : List Char → UInt8 → Prop} {spelling : List Char} {color : Color}
    (isSpelled : IsSpelled channel spelling color)
    (implies : ∀ part value, part ⊆ spelling → channel part value → other part value) :
    IsSpelled other spelling color := by
  cases isSpelled with
  | solid isRed isGreen isBlue =>
      refine .solid (implies _ _ ?_ isRed) (implies _ _ ?_ isGreen) (implies _ _ ?_ isBlue)
      all_goals exact fun character member => by simp [member]
  | withAlpha isRed isGreen isBlue isAlpha =>
      refine
        .withAlpha (implies _ _ ?_ isRed) (implies _ _ ?_ isGreen) (implies _ _ ?_ isBlue)
          (implies _ _ ?_ isAlpha)
      all_goals exact fun character member => by simp [member]

/-- Pairs of digits spell a colour by six or eight digits. -/
theorem IsSpelled.areDigits
    {spelling : List Char} {color : Color} (isSpelled : IsSpelled IsPair spelling color) :
    (spelling.length = 6 ∨ spelling.length = 8) ∧
      ∀ digit ∈ spelling, ∃ value, IsDigit digit value := by
  have pair (part : List Char) (value : UInt8) (isPair : IsPair part value) :
      part.length = 2 ∧ ∀ digit ∈ part, ∃ value, IsDigit digit value := by
    obtain ⟨isHigh, isLow⟩ := isPair
    simp only [List.forall_mem_cons]
    exact ⟨rfl, ⟨_, isHigh⟩, ⟨_, isLow⟩, by simp⟩
  cases isSpelled with
  | solid isRed isGreen isBlue =>
      have red := pair _ _ isRed
      have green := pair _ _ isGreen
      have blue := pair _ _ isBlue
      simp only [List.length_append, List.forall_mem_append]
      exact ⟨.inl (by omega), ⟨red.2, green.2⟩, blue.2⟩
  | withAlpha isRed isGreen isBlue isAlpha =>
      have red := pair _ _ isRed
      have green := pair _ _ isGreen
      have blue := pair _ _ isBlue
      have alpha := pair _ _ isAlpha
      simp only [List.length_append, List.forall_mem_append]
      exact ⟨.inr (by omega), ⟨⟨red.2, green.2⟩, blue.2⟩, alpha.2⟩

/-- The bytes of a spelled colour are read as the colour. -/
theorem IsSpelled.ofDigits?
    {spelling : List Char} {color : Color} (isSpelled : IsSpelled IsChannel spelling color) :
    ofDigits? (Text.encode spelling) = some color := by
  cases isSpelled with
  | solid isRed isGreen isBlue =>
      obtain ⟨_, _, redWritten, redRead⟩ := isRed.exists_channel?
      obtain ⟨_, _, greenWritten, greenRead⟩ := isGreen.exists_channel?
      obtain ⟨_, _, blueWritten, blueRead⟩ := isBlue.exists_channel?
      simp [redWritten, greenWritten, blueWritten, Color.ofDigits?, redRead, greenRead,
        blueRead, Color.solid]
  | withAlpha isRed isGreen isBlue isAlpha =>
      obtain ⟨_, _, redWritten, redRead⟩ := isRed.exists_channel?
      obtain ⟨_, _, greenWritten, greenRead⟩ := isGreen.exists_channel?
      obtain ⟨_, _, blueWritten, blueRead⟩ := isBlue.exists_channel?
      obtain ⟨_, _, alphaWritten, alphaRead⟩ := isAlpha.exists_channel?
      simp [redWritten, greenWritten, blueWritten, alphaWritten, Color.ofDigits?, redRead,
        greenRead, blueRead, alphaRead]

/-- Bytes that are read as a colour are those of a spelled one. -/
theorem exists_isSpelled_of_ofDigits?
    {bytes : Bytes} {color : Color} (read : ofDigits? bytes = some color) :
    ∃ spelling, IsSpelled IsChannel spelling color ∧ Text.encode spelling = bytes := by
  rw [Color.ofDigits?.eq_def] at read
  split at read
  case h_1 =>
    simp only [Option.bind_eq_bind, Option.bind_eq_some_iff] at read
    obtain ⟨red, redRead, green, greenRead, blue, blueRead, same⟩ := read
    cases same
    obtain ⟨_, isRed, redWritten⟩ := exists_isChannel_of_channel? redRead
    obtain ⟨_, isGreen, greenWritten⟩ := exists_isChannel_of_channel? greenRead
    obtain ⟨_, isBlue, blueWritten⟩ := exists_isChannel_of_channel? blueRead
    refine ⟨_, .solid isRed isGreen isBlue, ?_⟩
    rw [encode_append, encode_append, redWritten, greenWritten, blueWritten]
    rfl
  case h_2 =>
    simp only [Option.bind_eq_bind, Option.bind_eq_some_iff] at read
    obtain ⟨red, redRead, green, greenRead, blue, blueRead, alpha, alphaRead, same⟩ := read
    cases same
    obtain ⟨_, isRed, redWritten⟩ := exists_isChannel_of_channel? redRead
    obtain ⟨_, isGreen, greenWritten⟩ := exists_isChannel_of_channel? greenRead
    obtain ⟨_, isBlue, blueWritten⟩ := exists_isChannel_of_channel? blueRead
    obtain ⟨_, isAlpha, alphaWritten⟩ := exists_isChannel_of_channel? alphaRead
    refine ⟨_, .withAlpha isRed isGreen isBlue isAlpha, ?_⟩
    rw [encode_append, encode_append, encode_append, redWritten, greenWritten, blueWritten,
      alphaWritten]
    rfl
  case h_3 => cases read

/-- What is left of a text without the hashes in front. -/
def withoutHashes (text : String) : List Char :=
  text.toList.dropWhile (· == '#')

theorem ofHex?_eq_some_iff {text : String} {color : Color} :
    ofHex? text = some color ↔ IsSpelled IsChannel (withoutHashes text) color := by
  constructor
  · intro read
    obtain ⟨spelling, isSpelled, written⟩ := exists_isSpelled_of_ofDigits? read
    have same : spelling = withoutHashes text := encode_injective written
    exact same ▸ isSpelled
  · exact IsSpelled.ofDigits?

/-- The two digits of a byte spell it. -/
theorem isPair_upperHex (byte : UInt8) : IsPair (upperHex byte) byte := by
  have known : ∀ value < 16, IsDigit (upperHexDigit value) value := by decide
  have high : byte.toNat / 16 < 16 := Nat.div_lt_of_lt_mul byte.toNat_lt
  have low : byte.toNat % 16 < 16 := Nat.mod_lt _ (by decide)
  have whole : UInt8.ofNat (byte.toNat / 16 * 16 + byte.toNat % 16) = byte := by
    rw [Nat.div_add_mod', UInt8.ofNat_toNat]
  have pair := IsPair.digits (known _ high) (known _ low)
  rwa [whole] at pair

/-- Only one hash stands in front of the digits of a colour. -/
theorem withoutHashes_toHex (color : Color) :
    withoutHashes color.toHex =
      upperHex color.red ++ upperHex color.green ++ upperHex color.blue := by
  have noHash : ∀ value < 16, upperHexDigit value ≠ '#' := by decide
  have high : color.red.toNat / 16 < 16 := Nat.div_lt_of_lt_mul color.red.toNat_lt
  rw [withoutHashes, toHex, String.toList_ofList, List.cons_append, List.cons_append,
    List.dropWhile_cons_of_pos (by rfl), upperHex, List.cons_append, List.cons_append,
    List.dropWhile_cons_of_neg (by simpa using noHash _ high)]

theorem color_eq_ok_iff {text : String} {color : Color} :
    ThemeDocument.color text = .ok color ↔ IsSpelled IsChannel (withoutHashes text) color := by
  rw [← ofHex?_eq_some_iff, ThemeDocument.color]
  cases ofHex? text <;> simp

/-- A text is read as a colour exactly if it spells this with three or four channels behind any
number of hashes, and a text that spells no colour is refused by its name.  Without plus signs all
channels are pairs of digits, six or eight digits in all, and the written form of a colour is one of
these. -/
theorem color_eq_ok_iff_isSpelled (text : String) (color : Color) :
    (ThemeDocument.color text = .ok color ↔
        IsSpelled IsChannel (withoutHashes text) color) ∧
      ((∀ other, ¬IsSpelled IsChannel (withoutHashes text) other) →
        ThemeDocument.color text = .error (.invalidColor text)) ∧
      ('+' ∉ text.toList →
        (ThemeDocument.color text = .ok color ↔
          IsSpelled IsPair (withoutHashes text) color)) ∧
      ThemeDocument.color color.toHex = .ok ⟨color.red, color.green, color.blue, 255⟩ := by
  refine ⟨color_eq_ok_iff, ?refuses, ?unsigned, ?written⟩
  case refuses =>
    intro unspelled
    cases read : ThemeDocument.color text with
    | ok other => exact (unspelled other (color_eq_ok_iff.mp read)).elim
    | error failure =>
        rw [ThemeDocument.color] at read
        split at read
        · cases read
        · exact read.symm
  case unsigned =>
    intro unsigned
    rw [color_eq_ok_iff]
    constructor
    · refine fun isSpelled => isSpelled.imp fun part value inside isChannel => ?_
      refine isChannel.isPair fun signed => unsigned ?_
      exact (List.dropWhile_sublist _).subset (inside signed)
    · exact fun isSpelled => isSpelled.imp fun _ _ _ isPair => .pair isPair
  case written =>
    have isSpelled :
        IsSpelled IsPair (withoutHashes color.toHex)
          ⟨color.red, color.green, color.blue, 255⟩ := by
      rw [withoutHashes_toHex]
      exact .solid (isPair_upperHex _) (isPair_upperHex _) (isPair_upperHex _)
    exact color_eq_ok_iff.mpr (isSpelled.imp fun _ _ _ isPair => .pair isPair)

/-- Eight digits behind two hashes are a colour, and three characters of two bytes each are none. -/
theorem color_eq_ok_iff_isSpelled_sample :
    (∀ color, ¬IsSpelled IsChannel (withoutHashes "#ééé") color) ∧
      ThemeDocument.color "#ééé" = .error (.invalidColor "#ééé") ∧
      '+' ∉ "##0d1117Fe".toList ∧
      IsSpelled IsPair (withoutHashes "##0d1117Fe") ⟨0x0D, 0x11, 0x17, 0xFE⟩ := by
  have unspelled (color : Color) : ¬IsSpelled IsChannel (withoutHashes "#ééé") color := by
    rw [← color_eq_ok_iff]
    intro read
    have refused : ofHex? "#ééé" = none := by decide
    rw [ThemeDocument.color, refused] at read
    cases read
  have noPlus : '+' ∉ "##0d1117Fe".toList := by decide
  obtain ⟨-, refuses, -, -⟩ := color_eq_ok_iff_isSpelled "#ééé" default
  obtain ⟨-, -, unsigned, -⟩ :=
    color_eq_ok_iff_isSpelled "##0d1117Fe" ⟨0x0D, 0x11, 0x17, 0xFE⟩
  exact ⟨unspelled, refuses unspelled, noPlus, (unsigned noPlus).mp (by decide)⟩

/-- A plus sign and one digit are taken for a channel, so three of them are read although they are
three digits only. -/
theorem color_of_signed_digits :
    ThemeDocument.color "#+1+2+3" = .ok ⟨1, 2, 3, 255⟩ ∧
      ∀ color, ¬IsSpelled IsPair (withoutHashes "#+1+2+3") color := by
  refine ⟨by decide, fun color isSpelled => ?_⟩
  have noDigit : ∀ value < 16, ¬IsDigit '+' value := by decide
  obtain ⟨value, isDigit⟩ := isSpelled.areDigits.2 '+' (by decide)
  exact noDigit value isDigit.lt isDigit

end SourcePreview.Color
