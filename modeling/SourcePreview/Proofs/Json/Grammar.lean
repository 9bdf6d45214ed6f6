import SourcePreview.Token
import SourcePreview.Text.Blank
import Mathlib.Data.List.Basic

/-!
# The grammar of JSON texts

A JSON text is a sequence of lexemes: white space, structural characters, strings, numbers and the
three literal names.  The grammar says which sequences are texts; strings that name a member of an
object are kept apart from those that are values.

For looking at a text from left to right it is enough to know what may stand behind each lexeme:
a member name is followed by a colon, and a value by a comma, by a closing bracket or by the end.
Every text of the grammar satisfies these local conditions.
-/

namespace SourcePreview.JsonText

/-- A part of a JSON text that has no parts of its own. -/
inductive Lexeme where
  /-- One character of white space. -/
  | space (character : Char)
  /-- A structural character. -/
  | structural (character : Char)
  /-- A string that names a member, by what stands between its quotes. -/
  | name (content : List Char)
  /-- A string that is a value, by what stands between its quotes. -/
  | string (content : List Char)
  /-- A number. -/
  | number (spelling : List Char)
  /-- A literal name. -/
  | literal (word : List Char)
deriving DecidableEq

namespace Lexeme

/-- The characters of a lexeme. -/
def chars : Lexeme → List Char
  | .space character => [character]
  | .structural character => [character]
  | .name content => '"' :: content ++ ['"']
  | .string content => '"' :: content ++ ['"']
  | .number spelling => spelling
  | .literal word => word

/-- The class of a lexeme that is a token. -/
def tokenClass? : Lexeme → Option TokenClass
  | .space _ => none
  | .structural _ => none
  | .name _ => some .tag
  | .string _ => some .string
  | .number _ => some .number
  | .literal _ => some .keyword

end Lexeme

/-- The text that lexemes spell. -/
def spell (lexemes : List Lexeme) : List Char :=
  lexemes.flatMap Lexeme.chars

@[simp]
theorem spell_nil : spell [] = [] := rfl

@[simp]
theorem spell_cons (lexeme : Lexeme) (rest : List Lexeme) :
    spell (lexeme :: rest) = lexeme.chars ++ spell rest :=
  List.flatMap_cons

@[simp]
theorem spell_append (left right : List Lexeme) :
    spell (left ++ right) = spell left ++ spell right :=
  List.flatMap_append

/-- The spans of the tokens among lexemes, where the first lexeme starts at an index. -/
def tokensFrom : (index : Nat) → List Lexeme → List Span
  | _, [] => []
  | index, lexeme :: rest =>
    let stop := index + lexeme.chars.length
    match lexeme.tokenClass? with
    | some tokenClass => ⟨index, stop, tokenClass⟩ :: tokensFrom stop rest
    | none => tokensFrom stop rest

/-- The spans of the tokens of a text: names, strings, numbers and literal names. -/
def tokens (lexemes : List Lexeme) : List Span :=
  tokensFrom 0 lexemes

/-! ### Characters -/

/-- The characters of white space. -/
def spaces : List Char := [' ', '\t', '\n', '\r']

/-- The structural characters. -/
def structurals : List Char := ['[', '{', ']', '}', ':', ',']

/-- The structural characters that may follow a value. -/
def closers : List Char := [']', '}', ',']

/-- The literal names. -/
def literals : List (List Char) :=
  [['f', 'a', 'l', 's', 'e'], ['n', 'u', 'l', 'l'], ['t', 'r', 'u', 'e']]

/-- Whether a character may stand in a string as it is. -/
def isUnescaped (character : Char) : Bool :=
  0x20 ≤ character.toNat && character != '"' && character != '\\'

/-- Whether a character is a hexadecimal digit. -/
def isHexDigit (character : Char) : Bool :=
  character.isDigit || ('a' ≤ character && character ≤ 'f') ||
    ('A' ≤ character && character ≤ 'F')

/-! ### Strings and numbers -/

/-- What may stand between the quotes of a string. -/
inductive IsContent : List Char → Prop where
  | nil : IsContent []
  | unescaped {character : Char} {rest : List Char}
      (allowed : isUnescaped character = true) (content : IsContent rest) :
      IsContent (character :: rest)
  | escaped {letter : Char} {rest : List Char}
      (allowed : letter ∈ ['"', '\\', '/', 'b', 'f', 'n', 'r', 't'])
      (content : IsContent rest) :
      IsContent ('\\' :: letter :: rest)
  | codePoint {digits rest : List Char}
      (four : digits.length = 4)
      (hexadecimal : ∀ digit ∈ digits, isHexDigit digit = true)
      (content : IsContent rest) :
      IsContent ('\\' :: 'u' :: (digits ++ rest))

/-- One or more decimal digits. -/
def IsDigits (digits : List Char) : Prop :=
  digits ≠ [] ∧ ∀ digit ∈ digits, digit.isDigit = true

/-- A zero, or digits that do not start with a zero. -/
inductive IsInteger : List Char → Prop where
  | zero : IsInteger ['0']
  | positive {first : Char} {rest : List Char}
      (leading : first.isDigit = true) (nonzero : first ≠ '0')
      (digits : ∀ digit ∈ rest, digit.isDigit = true) :
      IsInteger (first :: rest)

/-- A point and digits, or nothing. -/
inductive IsFraction : List Char → Prop where
  | absent : IsFraction []
  | present {digits : List Char} (isDigits : IsDigits digits) : IsFraction ('.' :: digits)

/-- The letter of an exponent, perhaps a sign, and digits, or nothing. -/
inductive IsExponent : List Char → Prop where
  | absent : IsExponent []
  | present {letter : Char} {sign digits : List Char}
      (marked : letter ∈ ['e', 'E']) (signed : sign ∈ [[], ['+'], ['-']])
      (isDigits : IsDigits digits) :
      IsExponent (letter :: (sign ++ digits))

/-- A number: perhaps a minus sign, an integer, a fraction and an exponent. -/
inductive IsNumber : List Char → Prop where
  | parts {minus integer fraction exponent : List Char}
      (signed : minus ∈ [[], ['-']]) (isInteger : IsInteger integer)
      (isFraction : IsFraction fraction) (isExponent : IsExponent exponent) :
      IsNumber (minus ++ (integer ++ (fraction ++ exponent)))

/-! ### Texts -/

/-- White space, perhaps none. -/
def IsSpace (lexemes : List Lexeme) : Prop :=
  ∀ lexeme ∈ lexemes, ∃ character ∈ spaces, lexeme = .space character

/-- A structural character with white space around. -/
def IsStructural (character : Char) (lexemes : List Lexeme) : Prop :=
  ∃ before after,
    IsSpace before ∧ IsSpace after ∧ lexemes = before ++ .structural character :: after

theorem isSpace_nil : IsSpace [] := by
  simp [IsSpace]

/-- A structural character needs no white space around. -/
theorem isStructural_singleton (character : Char) :
    IsStructural character [.structural character] :=
  ⟨[], [], isSpace_nil, isSpace_nil, rfl⟩

/-- What the grammar derives sequences of lexemes for. -/
inductive Phrase where
  /-- A value. -/
  | value
  /-- A member of an object. -/
  | member
  /-- One or more members, separated by commas. -/
  | members
  /-- One or more values, separated by commas. -/
  | elements

/-- Whether lexemes make up a phrase. -/
inductive Derives : Phrase → List Lexeme → Prop where
  | string {content : List Char} (isContent : IsContent content) :
      Derives .value [.string content]
  | number {spelling : List Char} (isNumber : IsNumber spelling) :
      Derives .value [.number spelling]
  | literal {word : List Char} (listed : word ∈ literals) :
      Derives .value [.literal word]
  | emptyObject {opening closing : List Lexeme}
      (opens : IsStructural '{' opening) (closes : IsStructural '}' closing) :
      Derives .value (opening ++ closing)
  | object {opening members closing : List Lexeme}
      (opens : IsStructural '{' opening) (inner : Derives .members members)
      (closes : IsStructural '}' closing) :
      Derives .value (opening ++ (members ++ closing))
  | emptyArray {opening closing : List Lexeme}
      (opens : IsStructural '[' opening) (closes : IsStructural ']' closing) :
      Derives .value (opening ++ closing)
  | array {opening elements closing : List Lexeme}
      (opens : IsStructural '[' opening) (inner : Derives .elements elements)
      (closes : IsStructural ']' closing) :
      Derives .value (opening ++ (elements ++ closing))
  | member {content : List Char} {separator value : List Lexeme}
      (isContent : IsContent content) (separates : IsStructural ':' separator)
      (valued : Derives .value value) :
      Derives .member (.name content :: (separator ++ value))
  | lastMember {member : List Lexeme} (derived : Derives .member member) :
      Derives .members member
  | moreMembers {member separator members : List Lexeme}
      (derived : Derives .member member) (separates : IsStructural ',' separator)
      (others : Derives .members members) :
      Derives .members (member ++ (separator ++ members))
  | lastElement {value : List Lexeme} (derived : Derives .value value) :
      Derives .elements value
  | moreElements {value separator elements : List Lexeme}
      (derived : Derives .value value) (separates : IsStructural ',' separator)
      (others : Derives .elements elements) :
      Derives .elements (value ++ (separator ++ elements))

/-- Whether lexemes make up a JSON text: a value with white space around. -/
def IsText (lexemes : List Lexeme) : Prop :=
  ∃ before value after,
    IsSpace before ∧ Derives .value value ∧ IsSpace after ∧
      lexemes = before ++ (value ++ after)

/-- A value needs no white space around to be a text. -/
theorem Derives.isText {value : List Lexeme} (derives : Derives .value value) : IsText value :=
  ⟨[], value, [], isSpace_nil, derives, isSpace_nil, (List.append_nil _).symm⟩

/-! ### What stands behind a lexeme -/

/-- Whether a value may end in front of these lexemes. -/
def FollowsValue (lexemes : List Lexeme) : Prop :=
  ∃ between rest,
    IsSpace between ∧ lexemes = between ++ rest ∧
      (rest = [] ∨ ∃ character ∈ closers, ∃ more, rest = .structural character :: more)

/-- Whether a lexeme is well-formed and may stand in front of others. -/
inductive Fits : Lexeme → List Lexeme → Prop where
  | space {character : Char} {rest : List Lexeme} (listed : character ∈ spaces) :
      Fits (.space character) rest
  | structural {character : Char} {rest : List Lexeme} (listed : character ∈ structurals) :
      Fits (.structural character) rest
  | name {content : List Char} {between rest : List Lexeme}
      (isContent : IsContent content) (blank : IsSpace between) :
      Fits (.name content) (between ++ .structural ':' :: rest)
  | string {content : List Char} {rest : List Lexeme}
      (isContent : IsContent content) (follows : FollowsValue rest) :
      Fits (.string content) rest
  | number {spelling : List Char} {rest : List Lexeme}
      (isNumber : IsNumber spelling) (follows : FollowsValue rest) :
      Fits (.number spelling) rest
  | literal {word : List Char} {rest : List Lexeme}
      (listed : word ∈ literals) (follows : FollowsValue rest) :
      Fits (.literal word) rest

/-- Whether every lexeme is well-formed and may stand where it stands. -/
def Regular : List Lexeme → Prop
  | [] => True
  | lexeme :: rest => Fits lexeme rest ∧ Regular rest

theorem regular_append_of_isSpace
    {blank rest : List Lexeme} (isSpace : IsSpace blank) (regular : Regular rest) :
    Regular (blank ++ rest) := by
  induction blank with
  | nil => exact regular
  | cons lexeme blank ih =>
      obtain ⟨⟨character, listed, rfl⟩, others⟩ := List.forall_mem_cons.mp isSpace
      exact ⟨Fits.space listed, ih others⟩

theorem IsStructural.regular_append
    {character : Char} {part rest : List Lexeme}
    (isStructural : IsStructural character part) (listed : character ∈ structurals)
    (regular : Regular rest) :
    Regular (part ++ rest) := by
  obtain ⟨before, after, beforeBlank, afterBlank, rfl⟩ := isStructural
  rw [List.append_assoc, List.cons_append]
  exact
    regular_append_of_isSpace beforeBlank
      ⟨Fits.structural listed, regular_append_of_isSpace afterBlank regular⟩

theorem IsStructural.followsValue
    {character : Char} {part : List Lexeme}
    (isStructural : IsStructural character part) (listed : character ∈ closers)
    (rest : List Lexeme) :
    FollowsValue (part ++ rest) := by
  obtain ⟨before, after, beforeBlank, _, rfl⟩ := isStructural
  exact
    ⟨before, _, beforeBlank, List.append_assoc _ _ _,
      Or.inr ⟨character, listed, after ++ rest, rfl⟩⟩

/-- In front of lexemes that may follow a value, a phrase keeps the order regular. -/
theorem Derives.regular_append
    {phrase : Phrase} {part rest : List Lexeme}
    (derives : Derives phrase part)
    (follows : FollowsValue rest) (regular : Regular rest) :
    Regular (part ++ rest) := by
  induction derives generalizing rest with
  | string isContent => exact ⟨Fits.string isContent follows, regular⟩
  | number isNumber => exact ⟨Fits.number isNumber follows, regular⟩
  | literal listed => exact ⟨Fits.literal listed follows, regular⟩
  | emptyObject opens closes | emptyArray opens closes =>
      rw [List.append_assoc]
      exact
        opens.regular_append (by decide) (closes.regular_append (by decide) regular)
  | object opens _ closes ih | array opens _ closes ih =>
      rw [List.append_assoc, List.append_assoc]
      refine opens.regular_append (by decide) ?_
      exact
        ih (closes.followsValue (by decide) rest)
          (closes.regular_append (by decide) regular)
  | member isContent separates _ ih =>
      obtain ⟨before, after, beforeBlank, afterBlank, rfl⟩ := separates
      have valued := ih follows regular
      have behindColon : Regular (after ++ (_ ++ rest)) :=
        regular_append_of_isSpace afterBlank valued
      have separated :=
        regular_append_of_isSpace beforeBlank
          (show Regular (.structural ':' :: (after ++ (_ ++ rest))) from
            ⟨Fits.structural (by decide), behindColon⟩)
      simp only [List.cons_append, List.append_assoc]
      exact ⟨Fits.name isContent beforeBlank, separated⟩
  | lastMember _ ih | lastElement _ ih => exact ih follows regular
  | moreMembers _ separates _ firstIH othersIH
  | moreElements _ separates _ firstIH othersIH =>
      rw [List.append_assoc, List.append_assoc]
      refine firstIH (separates.followsValue (by decide) _) ?_
      exact separates.regular_append (by decide) (othersIH follows regular)

/-- In a text every lexeme may stand where it stands. -/
theorem IsText.regular {lexemes : List Lexeme} (isText : IsText lexemes) :
    Regular lexemes := by
  obtain ⟨before, value, after, beforeBlank, derives, afterBlank, rfl⟩ := isText
  have atEnd : FollowsValue after :=
    ⟨after, [], afterBlank, (List.append_nil after).symm, Or.inl rfl⟩
  have regularAfter : Regular after := by
    simpa using regular_append_of_isSpace afterBlank (show Regular [] from trivial)
  exact regular_append_of_isSpace beforeBlank (derives.regular_append atEnd regularAfter)

end SourcePreview.JsonText
