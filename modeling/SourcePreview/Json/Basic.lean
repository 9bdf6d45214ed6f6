import SourcePreview.Text.Hex

/-!
# JSON documents

A JSON document is kept as it is written: a string by the bytes between its quotes and a number by
its digits.  What a string or a number means is asked for only where it is needed.
-/

namespace SourcePreview

/-- A JSON document. -/
inductive Json where
  | null
  | bool (value : Bool)
  /-- A number by its spelling. -/
  | number (spelling : Bytes)
  /-- A string by the bytes between its quotes. -/
  | string (written : Bytes)
  | array (items : List Json)
  /-- An object by its keys, as the bytes between their quotes, and its values. -/
  | object (members : List (Bytes × Json))
deriving Repr, Inhabited

namespace Json

/-- The bytes of a text of ASCII characters. -/
def ascii (text : String) : Bytes :=
  text.toList.map fun character => UInt8.ofNat character.toNat

/-- A character as it is written in a string: quotes, backslashes and controls are escaped and
everything else stands for itself. -/
def escapeChar (character : Char) : Bytes :=
  match character with
  | '"' => ascii "\\\""
  | '\\' => ascii "\\\\"
  | '\x08' => ascii "\\b"
  | '\x0c' => ascii "\\f"
  | '\n' => ascii "\\n"
  | '\r' => ascii "\\r"
  | '\t' => ascii "\\t"
  | other =>
    if other.toNat < 0x20 then
      ascii "\\u00" ++ Text.encode (Text.lowerHex (UInt8.ofNat other.toNat))
    else String.utf8EncodeChar other

/-- A text as it is written in a string. -/
def escape (text : String) : Bytes :=
  text.toList.flatMap escapeChar

/-- The string of a text. -/
def ofText (text : String) : Json :=
  .string (escape text)

/-- The number of a natural number. -/
def ofNat (value : Nat) : Json :=
  .number (ascii (toString value))

/-- The object with these members. -/
def ofMembers (members : List (String × Json)) : Json :=
  .object (members.map fun (name, value) => (escape name, value))

/-- Four hexadecimal digits and what comes after them. -/
def fourDigits? : Bytes → Option (Nat × Bytes)
  | a :: b :: c :: d :: rest => do
    let a ← Text.hexValue? a
    let b ← Text.hexValue? b
    let c ← Text.hexValue? c
    let d ← Text.hexValue? d
    return (((a * 16 + b) * 16 + c) * 16 + d, rest)
  | _ => none

/-- The character that an escape with a letter stands for. -/
def letterEscape? (letter : UInt8) : Option UInt8 :=
  if letter = 0x22 ∨ letter = 0x5C ∨ letter = 0x2F then some letter
  else if letter = 0x62 then some 0x08
  else if letter = 0x66 then some 0x0C
  else if letter = 0x6E then some 0x0A
  else if letter = 0x72 then some 0x0D
  else if letter = 0x74 then some 0x09
  else none

/-- The character of an escape with four digits and what comes after it; two halves of a pair
belong together and a half on its own is none. -/
def codeEscape? (bytes : Bytes) : Option (Char × Bytes) := do
  let (unit, rest) ← fourDigits? bytes
  if 0xDC00 ≤ unit ∧ unit ≤ 0xDFFF then none
  else if 0xD800 ≤ unit ∧ unit ≤ 0xDBFF then
    match rest with
    | 0x5C :: 0x75 :: rest =>
      let (low, rest) ← fourDigits? rest
      if 0xDC00 ≤ low ∧ low ≤ 0xDFFF then
        some (Char.ofNat (0x10000 + (unit - 0xD800) * 0x400 + (low - 0xDC00)), rest)
      else none
    | _ => none
  else some (Char.ofNat unit, rest)

/-- The bytes that a written string stands for, last first, in front of `read`; `rounds` bounds
the number of characters. -/
def unescapeFrom : (rounds : Nat) → Bytes → (read : Bytes) → Option Bytes
  | _, [], read => some read
  | 0, _ :: _, _ => none
  | rounds + 1, 0x5C :: 0x75 :: rest, read =>
    match codeEscape? rest with
    | some (character, rest) =>
      unescapeFrom rounds rest ((String.utf8EncodeChar character).reverseAux read)
    | none => none
  | rounds + 1, 0x5C :: letter :: rest, read =>
    match letterEscape? letter with
    | some byte => unescapeFrom rounds rest (byte :: read)
    | none => none
  | rounds + 1, byte :: rest, read =>
    if byte = 0x5C then none else unescapeFrom rounds rest (byte :: read)

/-- The text that a written string stands for, if it stands for one. -/
def unescape? (written : Bytes) : Option String := do
  let reversed ← unescapeFrom written.length written []
  let characters ← Text.decode? reversed.reverse
  return String.ofList characters

/-- Whether a byte is a digit. -/
def isDigit (byte : UInt8) : Bool :=
  0x30 ≤ byte && byte ≤ 0x39

/-- The natural number that is spelled by digits alone. -/
def natural? (spelling : Bytes) : Option Nat :=
  if spelling.all isDigit then
    some (spelling.foldl (fun value byte => value * 10 + (byte.toNat - 0x30)) 0)
  else none

/-- The text of a string. -/
def text? : Json → Option String
  | .string written => unescape? written
  | _ => none

/-- The value of a number without sign, fraction and exponent. -/
def nat? : Json → Option Nat
  | .number spelling => natural? spelling
  | _ => none

/-- The truth value. -/
def bool? : Json → Option Bool
  | .bool value => some value
  | _ => none

/-- The items of an array. -/
def items? : Json → Option (List Json)
  | .array items => some items
  | _ => none

end Json

end SourcePreview
