import SourcePreview.Json.Basic

/-!
# Reading JSON documents

A document is read from bytes.  Strings are checked for unescaped controls and for the form of
their escapes but are not decoded, and numbers are checked for their form only.  Nothing but white
space may come after the document.
-/

namespace SourcePreview.Json

/-- Whether a byte is white space between the parts of a document. -/
def isSpace (byte : UInt8) : Bool :=
  byte == 0x20 || byte == 0x0A || byte == 0x09 || byte == 0x0D

/-- What comes after white space. -/
def skipSpace (bytes : Bytes) : Bytes :=
  bytes.dropWhile isSpace

/-- The rest of a string up to its closing quote, in front of which stands what was `read` of it,
last byte first, and what comes after the quote. -/
def readString : (read : Bytes) → Bytes → Option (Bytes × Bytes)
  | _, [] => none
  | read, 0x5C :: 0x75 :: a :: b :: c :: d :: rest =>
    if (fourDigits? [a, b, c, d]).isSome then
      readString (d :: c :: b :: a :: 0x75 :: 0x5C :: read) rest
    else none
  | read, 0x5C :: letter :: rest =>
    if (letterEscape? letter).isSome then readString (letter :: 0x5C :: read) rest
    else none
  | read, byte :: rest =>
    if byte = 0x22 then some (read.reverse, rest)
    else if byte < 0x20 ∨ byte = 0x5C then none
    else readString (byte :: read) rest

/-- One or more digits and what comes after them. -/
def readDigits (bytes : Bytes) : Option (Bytes × Bytes) :=
  let digits := bytes.takeWhile isDigit
  if digits.isEmpty then none else some (digits, bytes.dropWhile isDigit)

/-- The digits before the point of a number; only a zero on its own may start with one. -/
def readWhole : Bytes → Option (Bytes × Bytes)
  | 0x30 :: rest => if rest.head?.any isDigit then none else some ([0x30], rest)
  | bytes => readDigits bytes

/-- A point and digits after it, if there is a point. -/
def readFraction : Bytes → Option (Bytes × Bytes)
  | 0x2E :: rest => do
    let (digits, rest) ← readDigits rest
    return (0x2E :: digits, rest)
  | bytes => some ([], bytes)

/-- A sign, if there is one. -/
def readSign : Bytes → Bytes × Bytes
  | byte :: rest => if byte = 0x2B ∨ byte = 0x2D then ([byte], rest) else ([], byte :: rest)
  | [] => ([], [])

/-- An exponent, if there is one. -/
def readExponent : Bytes → Option (Bytes × Bytes)
  | byte :: rest =>
    if byte = 0x65 ∨ byte = 0x45 then do
      let (sign, rest) := readSign rest
      let (digits, rest) ← readDigits rest
      return (byte :: sign ++ digits, rest)
    else some ([], byte :: rest)
  | [] => some ([], [])

/-- A minus sign, if there is one. -/
def readMinus : Bytes → Bytes × Bytes
  | 0x2D :: rest => ([0x2D], rest)
  | bytes => ([], bytes)

/-- The spelling of a number and what comes after it. -/
def readNumber (bytes : Bytes) : Option (Bytes × Bytes) := do
  let (sign, rest) := readMinus bytes
  let (whole, rest) ← readWhole rest
  let (fraction, rest) ← readFraction rest
  let (exponent, rest) ← readExponent rest
  return (sign ++ whole ++ fraction ++ exponent, rest)

/-- What comes after a word. -/
def afterWord? : (word : Bytes) → Bytes → Option Bytes
  | [], rest => some rest
  | _ :: _, [] => none
  | expected :: word, byte :: rest => if byte = expected then afterWord? word rest else none

mutual

/-- A document and what comes after it; `depth` bounds the number of parts. -/
def readValue : (depth : Nat) → Bytes → Option (Json × Bytes)
  | 0, _ => none
  | depth + 1, bytes =>
    match skipSpace bytes with
    | [] => none
    | 0x7B :: rest =>
      match skipSpace rest with
      | 0x7D :: rest => some (.object [], rest)
      | rest => readMembers depth [] rest
    | 0x5B :: rest =>
      match skipSpace rest with
      | 0x5D :: rest => some (.array [], rest)
      | rest => readItems depth [] rest
    | 0x22 :: rest => (readString [] rest).map fun (written, rest) => (.string written, rest)
    | 0x6E :: rest => (afterWord? (ascii "ull") rest).map fun rest => (.null, rest)
    | 0x74 :: rest => (afterWord? (ascii "rue") rest).map fun rest => (.bool true, rest)
    | 0x66 :: rest => (afterWord? (ascii "alse") rest).map fun rest => (.bool false, rest)
    | bytes => (readNumber bytes).map fun (spelling, rest) => (.number spelling, rest)

/-- The rest of an array up to its closing bracket, after the items `read`, last first. -/
def readItems : (depth : Nat) → (read : List Json) → Bytes → Option (Json × Bytes)
  | 0, _, _ => none
  | depth + 1, read, bytes =>
    match readValue depth bytes with
    | none => none
    | some (item, rest) =>
      match skipSpace rest with
      | 0x2C :: rest => readItems depth (item :: read) rest
      | 0x5D :: rest => some (.array (item :: read).reverse, rest)
      | _ => none

/-- The rest of an object up to its closing brace, after the members `read`, last first. -/
def readMembers :
    (depth : Nat) → (read : List (Bytes × Json)) → Bytes → Option (Json × Bytes)
  | 0, _, _ => none
  | depth + 1, read, bytes =>
    match skipSpace bytes with
    | 0x22 :: rest =>
      match readString [] rest with
      | none => none
      | some (key, rest) =>
        match skipSpace rest with
        | 0x3A :: rest =>
          match readValue depth rest with
          | none => none
          | some (value, rest) =>
            match skipSpace rest with
            | 0x2C :: rest => readMembers depth ((key, value) :: read) rest
            | 0x7D :: rest => some (.object ((key, value) :: read).reverse, rest)
            | _ => none
        | _ => none
    | _ => none

end

/-- The document that bytes spell. -/
def parse? (bytes : Bytes) : Option Json :=
  match readValue (bytes.length + 1) bytes with
  | some (document, rest) => if (skipSpace rest).isEmpty then some document else none
  | none => none

end SourcePreview.Json
