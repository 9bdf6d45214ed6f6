import SourcePreview.Text.Hex
import SourcePreview.Yaml.Cursor

/-!
# Quoted scalars

In a single-quoted scalar two quotes stand for one.  A double-quoted scalar has escapes, also for
line breaks.  In both, line breaks stand for spaces.
-/

namespace SourcePreview.Yaml.Quoted

/-- The number that hexadecimal digits spell. -/
def hexNumber? (digits : List Char) : Option Nat :=
  digits.foldlM (fun number digit =>
    if digit.toNat < 0x80 then
      (Text.hexValue? (UInt8.ofNat digit.toNat)).map fun value => number * 16 + value
    else none) 0

/-- The character with a code point of so many hexadecimal digits. -/
def codePoint? (count : Nat) (rest : List Char) : Option Char := do
  let digits := rest.take count
  if digits.length < count then none
  let number ← hexNumber? digits
  if number.isValidChar then some (Char.ofNat number) else none

/-- The character that an escape stands for and the number of characters after the backslash. -/
def escape? : List Char → Option (Char × Nat)
  | 'x' :: rest => (codePoint? 2 rest).map (·, 3)
  | 'u' :: rest => (codePoint? 4 rest).map (·, 5)
  | 'U' :: rest => (codePoint? 8 rest).map (·, 9)
  | '0' :: _ => some ('\x00', 1)
  | 'a' :: _ => some ('\x07', 1)
  | 'b' :: _ => some ('\x08', 1)
  | 't' :: _ => some ('\t', 1)
  | '\t' :: _ => some ('\t', 1)
  | 'n' :: _ => some ('\n', 1)
  | 'v' :: _ => some ('\x0b', 1)
  | 'f' :: _ => some ('\x0c', 1)
  | 'r' :: _ => some ('\r', 1)
  | 'e' :: _ => some ('\x1b', 1)
  | ' ' :: _ => some (' ', 1)
  | '"' :: _ => some ('"', 1)
  | '/' :: _ => some ('/', 1)
  | '\\' :: _ => some ('\\', 1)
  | 'N' :: _ => some ('\u0085', 1)
  | '_' :: _ => some ('\u00a0', 1)
  | 'L' :: _ => some ('\u2028', 1)
  | 'P' :: _ => some ('\u2029', 1)
  | _ => none

/-- Reads up to white space, the closing quote or an escaped line break, which starts a gap of
its own.  What is read comes last first; `rounds` bounds the characters. -/
def readWord (quote : Char) :
    (rounds : Nat) → (read : List Char) → Cursor → Option (List Char × Gap × Cursor)
  | 0, _, _ => none
  | rounds + 1, read, cursor =>
    match cursor.rest with
    | [] => some (read, Gap.none, cursor)
    | character :: rest =>
      if isGap character then some (read, Gap.none, cursor)
      else if character = quote then
        if quote = '\'' ∧ rest.head? = some '\'' then
          readWord quote rounds ('\'' :: read) (cursor.skip 2)
        else some (read, Gap.none, cursor)
      else if quote = '"' ∧ character = '\\' then
        match (cursor.skip 1).lineBreak? with
        | some (_, next) => some (read, Gap.escapedBreak, next)
        | none =>
          match escape? rest with
          | some (escaped, count) =>
            readWord quote rounds (escaped :: read) (cursor.skip (count + 1))
          | none => none
      else readWord quote rounds (character :: read) (cursor.skip 1)

/-- Reads words and white space up to the closing quote. -/
def readWords (quote : Char) :
    (rounds : Nat) → (read : List Char) → Cursor → Option (List Char × Cursor)
  | 0, _, _ => none
  | rounds + 1, read, cursor =>
    if cursor.isAtDocumentMark || cursor.rest.isEmpty then none
    else
      match readWord quote (cursor.rest.length + 1) read cursor with
      | none => none
      | some (read, gap, cursor) =>
        if cursor.isAt quote then some (read, cursor.skip 1)
        else
          match gap.read? 0 cursor with
          | some (gap, cursor) => readWords quote rounds (gap.reversedText ++ read) cursor
          | none => none

/-- The quoted scalar whose opening quote is at a place, and the place after its closing quote. -/
def read? (quote : Char) (cursor : Cursor) : Option (String × Cursor) :=
  (readWords quote (cursor.rest.length + 1) [] (cursor.skip 1)).map fun (read, cursor) =>
    (String.ofList read.reverse, cursor)

end SourcePreview.Yaml.Quoted
