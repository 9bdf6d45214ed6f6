import SourcePreview.Proofs.Json.Grammar
import SourcePreview.Proofs.Json.Spellings

/-!
# Spellings are texts of the grammar

Every spelling of a document is the text of lexemes that the grammar of JSON derives.  The lexemes
are found along the rules for spellings: white space and structural characters stand for
themselves, and written texts and numbers are strings and numbers of the grammar.
-/

namespace SourcePreview

theorem Text.encode_of_ascii
    {characters : List Char} (ascii : ∀ character ∈ characters, character.toNat < 128) :
    encode characters = characters.map fun character => UInt8.ofNat character.toNat := by
  induction characters with
  | nil => rfl
  | cons character characters ih =>
      obtain ⟨first, others⟩ := List.forall_mem_cons.mp ascii
      rw [encode_cons, utf8EncodeChar_of_ascii first, ih others]
      rfl

namespace Json

open JsonText

/-- White space is made of lexemes of white space. -/
theorem IsGap.exists_isSpace {gap : Bytes} (blank : IsGap gap) :
    ∃ lexemes, IsSpace lexemes ∧ gap = Text.encode (spell lexemes) := by
  induction gap with
  | nil => exact ⟨[], isSpace_nil, rfl⟩
  | cons byte gap ih =>
      obtain ⟨first, others⟩ := List.forall_mem_cons.mp blank
      obtain ⟨lexemes, isSpace, rfl⟩ := ih others
      obtain ⟨character, listed, encoded⟩ :
          ∃ character ∈ spaces, [byte] = String.utf8EncodeChar character := by
        simp only [Json.isSpace, Bool.or_eq_true, beq_iff_eq] at first
        rcases first with ((rfl | rfl) | rfl) | rfl
        · exact ⟨' ', by decide, rfl⟩
        · exact ⟨'\n', by decide, rfl⟩
        · exact ⟨'\t', by decide, rfl⟩
        · exact ⟨'\r', by decide, rfl⟩
      refine ⟨.space character :: lexemes, ?_, ?_⟩
      · exact List.forall_mem_cons.mpr ⟨⟨character, listed, rfl⟩, isSpace⟩
      · rw [spell_cons, Lexeme.chars, List.singleton_append, Text.encode_cons, ← encoded]
        rfl

/-- A structural character with white space around is one of the grammar. -/
theorem exists_isStructural
    {before after : Bytes} (blankBefore : IsGap before) (blankAfter : IsGap after)
    (byte : UInt8) (character : Char) (encoded : [byte] = String.utf8EncodeChar character) :
    ∃ lexemes,
      IsStructural character lexemes ∧
        before ++ byte :: after = Text.encode (spell lexemes) := by
  obtain ⟨left, isLeft, rfl⟩ := blankBefore.exists_isSpace
  obtain ⟨right, isRight, rfl⟩ := blankAfter.exists_isSpace
  refine ⟨left ++ .structural character :: right, ⟨left, right, isLeft, isRight, rfl⟩, ?_⟩
  rw [spell_append, spell_cons, Lexeme.chars, List.singleton_append, Text.encode_append,
    Text.encode_cons, ← encoded]
  rfl

/-! ### Strings and numbers -/

theorem isContent_append
    {left right : List Char} (isLeft : IsContent left) (isRight : IsContent right) :
    IsContent (left ++ right) := by
  induction isLeft with
  | nil => exact isRight
  | unescaped allowed _ ih => exact .unescaped allowed ih
  | escaped allowed _ ih => exact .escaped allowed ih
  | codePoint four hexadecimal _ ih =>
      rw [List.cons_append, List.cons_append, List.append_assoc]
      exact .codePoint four hexadecimal ih

/-- The letters of escapes are those of the grammar. -/
theorem exists_letter_of_letterEscape?
    {letter byte : UInt8} (escape : letterEscape? letter = some byte) :
    ∃ character ∈ ['"', '\\', '/', 'b', 'f', 'n', 'r', 't'],
      [letter] = String.utf8EncodeChar character := by
  unfold letterEscape? at escape
  split at escape
  · next listed =>
      rcases listed with rfl | rfl | rfl
      · exact ⟨'"', by decide, rfl⟩
      · exact ⟨'\\', by decide, rfl⟩
      · exact ⟨'/', by decide, rfl⟩
  repeat' split at escape
  · next isLetter => exact ⟨'b', by decide, isLetter ▸ rfl⟩
  · next isLetter => exact ⟨'f', by decide, isLetter ▸ rfl⟩
  · next isLetter => exact ⟨'n', by decide, isLetter ▸ rfl⟩
  · next isLetter => exact ⟨'r', by decide, isLetter ▸ rfl⟩
  · next isLetter => exact ⟨'t', by decide, isLetter ▸ rfl⟩
  · cases escape

/-- The digits of escapes are those of the grammar. -/
theorem exists_isHexDigit_of_hexValue?
    {byte : UInt8} (digit : (Text.hexValue? byte).isSome = true) :
    ∃ character, isHexDigit character = true ∧ [byte] = String.utf8EncodeChar character := by
  have all :
      ∀ value < 256,
        (Text.hexValue? (UInt8.ofNat value)).isSome = true →
          isHexDigit (Char.ofNat value) = true ∧
            [UInt8.ofNat value] = String.utf8EncodeChar (Char.ofNat value) := by
    decide +kernel
  have isDigit := all byte.toNat byte.toNat_lt
  rw [UInt8.ofNat_toNat] at isDigit
  exact ⟨_, isDigit digit⟩

/-- A character whose bytes stand for themselves may stand in a string as it is. -/
theorem isUnescaped_of_isPlain
    {character : Char} (plain : ∀ byte ∈ String.utf8EncodeChar character, IsPlain byte) :
    isUnescaped character = true := by
  simp only [isUnescaped, Bool.and_eq_true, decide_eq_true_eq, bne_iff_ne]
  by_cases ascii : character.toNat < 128
  · rw [Text.utf8EncodeChar_of_ascii ascii] at plain
    obtain ⟨noControl, noQuote, noBackslash⟩ := plain _ (List.mem_singleton_self _)
    rw [UInt8.lt_iff_toNat_lt, UInt8.toNat_ofNat', Nat.mod_eq_of_lt (by omega)] at noControl
    refine ⟨⟨Nat.le_of_not_lt noControl, ?_⟩, ?_⟩
    · rintro rfl
      exact noQuote rfl
    · rintro rfl
      exact noBackslash rfl
  · refine ⟨⟨by omega, ?_⟩, ?_⟩
    all_goals
      rintro rfl
      exact ascii (by decide)

/-- What is written of a character may stand in a string. -/
theorem exists_isContent_escapeChar (character : Char) :
    ∃ content, IsContent content ∧ escapeChar character = Text.encode content := by
  cases writtenForm character with
  | plain bytes isPlain =>
      refine ⟨[character], .unescaped (isUnescaped_of_isPlain isPlain) .nil, ?_⟩
      rw [bytes, Text.encode_cons, Text.encode_nil, List.append_nil]
  | letter letter byte bytes escape noCode encoded =>
      obtain ⟨isLetter, listed, written⟩ := exists_letter_of_letterEscape? escape
      refine ⟨['\\', isLetter], .escaped listed .nil, ?_⟩
      rw [bytes, Text.encode_cons, Text.encode_cons, ← written]
      rfl
  | code high low bytes digits escape =>
      obtain ⟨highDigit, lowDigit⟩ :
          (Text.hexValue? high).isSome = true ∧ (Text.hexValue? low).isSome = true := by
        cases isHigh : Text.hexValue? high with
        | none => simp [fourDigits?, isHigh] at digits
        | some value =>
            cases isLow : Text.hexValue? low with
            | none => simp [fourDigits?, isLow] at digits
            | some value => exact ⟨rfl, rfl⟩
      obtain ⟨first, isFirst, firstWritten⟩ := exists_isHexDigit_of_hexValue? highDigit
      obtain ⟨last, isLast, lastWritten⟩ := exists_isHexDigit_of_hexValue? lowDigit
      refine ⟨'\\' :: 'u' :: (['0', '0', first, last] ++ []), .codePoint rfl ?_ .nil, ?_⟩
      · simp only [List.forall_mem_cons, List.not_mem_nil, false_imp_iff, implies_true, and_true]
        exact ⟨by decide, by decide, isFirst, isLast⟩
      · rw [bytes]
        simp only [List.append_nil, Text.encode_cons, Text.encode_nil, ← firstWritten,
          ← lastWritten]
        rfl

theorem inQuotes_eq (written : Bytes) :
    inQuotes written = Text.encode ['"'] ++ (written ++ Text.encode ['"']) := rfl

/-- A written text is the content of a string. -/
theorem exists_isContent_escape (text : String) :
    ∃ content, IsContent content ∧ escape text = Text.encode content := by
  rw [escape]
  induction text.toList with
  | nil => exact ⟨[], .nil, rfl⟩
  | cons character characters ih =>
      obtain ⟨first, isFirst, written⟩ := exists_isContent_escapeChar character
      obtain ⟨others, areOthers, othersWritten⟩ := ih
      refine ⟨first ++ others, isContent_append isFirst areOthers, ?_⟩
      rw [List.flatMap_cons, written, othersWritten, Text.encode_append]

/-- A written number is a number of the grammar. -/
theorem exists_isNumber_decimal (value : Nat) :
    ∃ spelling, IsNumber spelling ∧ decimal value = Text.encode spelling := by
  have allDigits : ∀ digit ∈ Nat.toDigits 10 value, digit.isDigit = true :=
    fun digit => Nat.isDigit_of_mem_toDigits (by decide) (by decide)
  have written : decimal value = Text.encode (Nat.toDigits 10 value) := by
    have small : ∀ digit ∈ Nat.toDigits 10 value, digit.toNat < 128 := by
      intro digit member
      have isDigit := allDigits digit member
      simp only [Char.isDigit, Bool.and_eq_true, decide_eq_true_eq] at isDigit
      exact Nat.lt_of_le_of_lt isDigit.2 (by decide)
    rw [Text.encode_of_ascii small, decimal, ascii, Nat.toString_eq_ofList_toDigits,
      String.toList_ofList]
  have isInteger : IsInteger (Nat.toDigits 10 value) := by
    cases digits : Nat.toDigits 10 value with
    | nil =>
        rw [digits] at written
        exact absurd written (decimal_ne_nil value)
    | cons first rest =>
        rw [digits] at allDigits written
        obtain ⟨leading, others⟩ := List.forall_mem_cons.mp allDigits
        by_cases zero : first = '0'
        · subst zero
          have alone : Text.encode rest = [] := decimal_eq_zero_cons written
          rw [← Text.encode_nil, Text.encode_injective.eq_iff] at alone
          rw [alone]
          exact .zero
        · exact .positive leading zero others
  refine ⟨[] ++ (Nat.toDigits 10 value ++ ([] ++ [])), .parts ?_ isInteger .absent .absent, ?_⟩
  · exact List.mem_cons_self
  · rw [written]
    simp

/-! ### Parts -/

/-- Whether bytes are the text of what the grammar derives for a part. -/
def Part.IsTextOf (bytes : Bytes) : Part → Prop
  | .document spelled =>
    ∃ lexemes,
      Derives .value lexemes ∧ bytes = Text.encode (spell lexemes) ∧
        ((∃ members, spelled = .object members) → lexemes.head? = some (.structural '{'))
  | .items _ =>
    ∃ elements closing,
      Derives .elements elements ∧ IsStructural ']' closing ∧
        bytes = Text.encode (spell (elements ++ closing))
  | .member _ _ =>
    ∃ lexemes, Derives .member lexemes ∧ bytes = Text.encode (spell lexemes)
  | .members _ =>
    ∃ members closing,
      Derives .members members ∧ IsStructural '}' closing ∧
        bytes = Text.encode (spell (members ++ closing))

/-- An opening bracket or brace with white space behind it. -/
theorem exists_opening
    {gap : Bytes} (blank : IsGap gap) (byte : UInt8) (character : Char)
    (encoded : [byte] = String.utf8EncodeChar character) :
    ∃ lexemes,
      IsStructural character lexemes ∧ lexemes.head? = some (.structural character) ∧
        byte :: gap = Text.encode (spell lexemes) := by
  obtain ⟨right, isRight, rfl⟩ := blank.exists_isSpace
  refine
    ⟨.structural character :: right, ⟨[], right, isSpace_nil, isRight, rfl⟩, rfl, ?_⟩
  rw [spell_cons, Lexeme.chars, List.singleton_append, Text.encode_cons, ← encoded]
  rfl

/-- Every spelling is the text of what the grammar derives. -/
theorem Spells.isTextOf {part : Part} {bytes : Bytes} (spells : Spells part bytes) :
    part.IsTextOf bytes := by
  induction spells with
  | null => exact ⟨[.literal "null".toList], .literal (by decide), rfl, nofun⟩
  | bool value =>
      cases value
      · exact ⟨[.literal "false".toList], .literal (by decide), rfl, nofun⟩
      · exact ⟨[.literal "true".toList], .literal (by decide), rfl, nofun⟩
  | number value =>
      obtain ⟨spelling, isNumber, written⟩ := exists_isNumber_decimal value
      refine ⟨[.number spelling], .number isNumber, ?_, nofun⟩
      rw [written, spell_cons, spell_nil, List.append_nil]
      rfl
  | string text =>
      obtain ⟨content, isContent, written⟩ := exists_isContent_escape text
      refine ⟨[.string content], .string isContent, ?_, nofun⟩
      rw [inQuotes_eq, written]
      simp [Lexeme.chars]
  | emptyArray blank =>
      obtain ⟨opening, opens, -, opened⟩ := exists_opening isGap_nil 0x5B '[' rfl
      obtain ⟨closing, closes, closed⟩ :=
        exists_isStructural blank isGap_nil 0x5D ']' rfl
      refine ⟨opening ++ closing, .emptyArray opens closes, ?_, nofun⟩
      rw [spell_append, Text.encode_append, ← opened, ← closed]
      rfl
  | array blank inner ih =>
      obtain ⟨opening, opens, -, opened⟩ := exists_opening blank 0x5B '[' rfl
      obtain ⟨elements, closing, derives, closes, rfl⟩ := ih
      refine ⟨opening ++ (elements ++ closing), .array opens derives closes, ?_, nofun⟩
      simp only [spell_append, Text.encode_append, ← opened]
      rfl
  | emptyObject blank =>
      obtain ⟨opening, opens, head, opened⟩ :=
        exists_opening isGap_nil 0x7B '{' rfl
      obtain ⟨closing, closes, closed⟩ :=
        exists_isStructural blank isGap_nil 0x7D '}' rfl
      refine ⟨opening ++ closing, .emptyObject opens closes, ?_, fun _ => ?_⟩
      · rw [spell_append, Text.encode_append, ← opened, ← closed]
        rfl
      · rw [List.head?_append, head]
        rfl
  | object blank inner ih =>
      obtain ⟨opening, opens, head, opened⟩ :=
        exists_opening blank 0x7B '{' rfl
      obtain ⟨members, closing, derives, closes, rfl⟩ := ih
      refine ⟨opening ++ (members ++ closing), .object opens derives closes, ?_, fun _ => ?_⟩
      · simp only [spell_append, Text.encode_append, ← opened]
        rfl
      · rw [List.head?_append, head]
        rfl
  | lastItem spelled blank ih =>
      obtain ⟨value, derives, rfl, -⟩ := ih
      obtain ⟨closing, closes, closed⟩ :=
        exists_isStructural blank isGap_nil 0x5D ']' rfl
      refine ⟨value, closing, .lastElement derives, closes, ?_⟩
      rw [spell_append, Text.encode_append, ← closed]
  | moreItems spelled blankBefore blankAfter others ih othersIH =>
      obtain ⟨value, derives, rfl, -⟩ := ih
      obtain ⟨separator, separates, separated⟩ :=
        exists_isStructural blankBefore blankAfter 0x2C ',' rfl
      obtain ⟨elements, closing, othersDerive, closes, rfl⟩ := othersIH
      refine
        ⟨value ++ (separator ++ elements), closing, .moreElements derives separates othersDerive,
          closes, ?_⟩
      simp only [spell_append, Text.encode_append, ← separated]
      simp
  | member text blankBefore blankAfter spelled ih =>
      obtain ⟨content, isContent, written⟩ := exists_isContent_escape text
      obtain ⟨separator, separates, separated⟩ :=
        exists_isStructural blankBefore blankAfter 0x3A ':' rfl
      obtain ⟨value, derives, rfl, -⟩ := ih
      refine ⟨.name content :: (separator ++ value), .member isContent separates derives, ?_⟩
      rw [inQuotes_eq, written]
      simp only [spell_cons, spell_append, Text.encode_append, ← separated]
      simp [Lexeme.chars]
  | lastMember spelled blank ih =>
      obtain ⟨member, derives, rfl⟩ := ih
      obtain ⟨closing, closes, closed⟩ :=
        exists_isStructural blank isGap_nil 0x7D '}' rfl
      refine ⟨member, closing, .lastMember derives, closes, ?_⟩
      rw [spell_append, Text.encode_append, ← closed]
  | moreMembers spelled blankBefore blankAfter others ih othersIH =>
      obtain ⟨member, derives, rfl⟩ := ih
      obtain ⟨separator, separates, separated⟩ :=
        exists_isStructural blankBefore blankAfter 0x2C ',' rfl
      obtain ⟨members, closing, othersDerive, closes, rfl⟩ := othersIH
      refine
        ⟨member ++ (separator ++ members), closing, .moreMembers derives separates othersDerive,
          closes, ?_⟩
      simp only [spell_append, Text.encode_append, ← separated]
      simp

/-- Whether bytes are a JSON text that is an object. -/
def IsObjectText (bytes : Bytes) : Prop :=
  ∃ lexemes,
    Derives .value lexemes ∧ lexemes.head? = some (.structural '{') ∧
      bytes = Text.encode (spell lexemes)

theorem isObjectText_of_spells
    {members : List (Bytes × Json)} {bytes : Bytes}
    (spells : Spells (.document (.object members)) bytes) :
    IsObjectText bytes := by
  obtain ⟨lexemes, derives, written, opens⟩ := spells.isTextOf
  exact ⟨lexemes, derives, opens ⟨members, rfl⟩, written⟩

end Json

end SourcePreview
