import SourcePreview.Text.Visible

/-!
# Quoted texts

A text shown between double quotes.  A quote and a backslash get a backslash, tab, line feed,
carriage return and NUL have short escapes, and any other character that is not visible is shown
by its code point in hexadecimal.
-/

namespace SourcePreview.Text

/-- The hexadecimal digits of a number, without leading zeros. -/
def hexDigits (number : Nat) : List Char :=
  Nat.toDigits 16 number

/-- A character as it is shown between quotes. -/
def quotedChar (character : Char) : List Char :=
  match character with
  | '"' => ['\\', '"']
  | '\\' => ['\\', '\\']
  | '\t' => ['\\', 't']
  | '\n' => ['\\', 'n']
  | '\r' => ['\\', 'r']
  | '\x00' => ['\\', '0']
  | other =>
    if isVisible other then [other]
    else ['\\', 'u', '\x7b'] ++ hexDigits other.toNat ++ ['\x7d']

/-- A text between double quotes. -/
def quoted (text : String) : String :=
  String.ofList ('"' :: text.toList.flatMap quotedChar ++ ['"'])

end SourcePreview.Text
