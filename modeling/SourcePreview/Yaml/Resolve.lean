import SourcePreview.Yaml.Fields

/-!
# Words that are not read as texts

A plain word may stand for nothing, a truth value, an integer or a number with a fraction.  A text
that is such a word must be quoted where it is written.
-/

namespace SourcePreview.Yaml

/-- The greatest integer below which a word is an integer. -/
def integerBound : Nat := 1 <<< 128

/-- Whether a word spells an integer: a natural number of at most 128 bits, or a negative one of
at most 127 bits and the least below these. -/
def isInteger (word : List Char) : Bool :=
  match word with
  | '-' :: rest =>
    rest.head? != some '+' && (Document.naturalOf? rest).any fun value => value ≤ 1 <<< 127
  | other => (Document.naturalOf? other).any fun value => value < integerBound

/-- Whether a word is a zero followed by other digits, perhaps after a sign. -/
def hasLeadingZero (word : List Char) : Bool :=
  let digits :=
    match word with
    | '+' :: rest => rest
    | '-' :: rest => rest
    | other => other
  1 < digits.length && digits.head? == some '0' && digits.all Char.isDigit

/-- A number with a fraction and an exponent, as it is written. -/
structure DecimalSpelling where
  /-- The digits before and after the point as one number. -/
  digits : Nat
  /-- The power of ten that they are multiplied by. -/
  power : Int

/-- The number that digits spell. -/
def numberOfDigits (digits : List Char) : Nat :=
  digits.foldl (fun number digit => number * 10 + (digit.toNat - '0'.toNat)) 0

/-- The power of ten after the letter of an exponent. -/
def exponent? (characters : List Char) : Option Int :=
  let (negative, digits) :=
    match characters with
    | '-' :: rest => (true, rest)
    | '+' :: rest => (false, rest)
    | other => (false, other)
  if digits.isEmpty || !digits.all Char.isDigit then none
  else some (if negative then -(numberOfDigits digits : Int) else numberOfDigits digits)

/-- The number that a word without a sign spells. -/
def decimalSpelling? (word : List Char) : Option DecimalSpelling := do
  let whole := word.takeWhile Char.isDigit
  let afterWhole := word.dropWhile Char.isDigit
  let (fraction, rest) :=
    match afterWhole with
    | '.' :: rest => (rest.takeWhile Char.isDigit, rest.dropWhile Char.isDigit)
    | rest => ([], rest)
  if whole.isEmpty && fraction.isEmpty then none
  let power ←
    match rest with
    | [] => some 0
    | letter :: digits => if letter = 'e' ∨ letter = 'E' then exponent? digits else none
  return ⟨numberOfDigits (whole ++ fraction), power - fraction.length⟩

/-- Whether a number is small enough to be a binary number of sixty-four bits after rounding. -/
def DecimalSpelling.isFinite (spelling : DecimalSpelling) : Bool :=
  let limit := (1 <<< 1024) - (1 <<< 970)
  let magnitude := (Nat.toDigits 10 spelling.digits).length + spelling.power
  if spelling.digits = 0 ∨ magnitude < 300 then true
  else if 400 < magnitude then false
  else if 0 ≤ spelling.power then spelling.digits * Nat.pow 10 spelling.power.toNat < limit
  else spelling.digits < limit * Nat.pow 10 (-spelling.power).toNat

/-- Whether a word spells a number with a fraction, infinity or what is not a number. -/
def isDecimal (word : List Char) : Bool :=
  let text := String.ofList word
  let unsigned :=
    match word with
    | '+' :: rest => if rest.head?.any fun sign => sign == '+' || sign == '-' then [] else rest
    | other => other
  let digits :=
    match unsigned with
    | '-' :: rest => rest
    | other => other
  String.ofList unsigned ∈ [".inf", ".Inf", ".INF"] ||
    text ∈ ["-.inf", "-.Inf", "-.INF", ".nan", ".NaN", ".NAN"] ||
    (decimalSpelling? digits).any DecimalSpelling.isFinite

/-- Whether a text must be quoted because as a plain word it is no text, or looks like a number
with zeros in front. -/
def isAmbiguous (text : String) : Bool :=
  let word := text.toList
  word.isEmpty || Document.isNull text || (Document.boolOf? text).isSome || isInteger word ||
    hasLeadingZero word || isDecimal word

end SourcePreview.Yaml
