import SourcePreview.Pattern.Basic
import SourcePreview.Text.Blank
import SourcePreview.Text.DecimalDigit

/-!
# Building patterns

Character tests and the patterns that the language tables are written with.  Letters can be
compared up to simple case folding, under which the long s goes with `s` and the Kelvin sign with
`k`.
-/

namespace SourcePreview

namespace CharTest

/-- Exactly this character. -/
def only (wanted : Char) : CharTest :=
  fun character => character == wanted

/-- Whether a character is one of the members. -/
def isMember : (members : List Char) → CharTest
  | [], _ => false
  | member :: members, character => character == member || isMember members character

/-- One of the listed characters. -/
def among (listed : String) : CharTest :=
  isMember listed.toList

/-- None of the listed characters. -/
def outside (listed : String) : CharTest :=
  let members := listed.toList
  fun character => !isMember members character

/-- Any character at all. -/
def anything : CharTest := fun _ => true

/-- Any character but a line feed. -/
def inLine : CharTest := fun character => character != '\n'

/-- A letter of the ASCII alphabet. -/
def letter : CharTest := Char.isAlpha

/-- A lower-case letter of the ASCII alphabet. -/
def lower : CharTest := Char.isLower

/-- An upper-case letter of the ASCII alphabet. -/
def upper : CharTest := Char.isUpper

/-- A digit from `0` to `9`. -/
def asciiDigit : CharTest := Char.isDigit

/-- A hexadecimal digit. -/
def hexDigit : CharTest := fun character =>
  character.isDigit || ('a' ≤ character && character ≤ 'f') ||
    ('A' ≤ character && character ≤ 'F')

/-- A decimal digit of any script. -/
def digit : CharTest := Text.isDecimalDigit

/-- A word character of any script. -/
def word : CharTest := Text.isWordChar

/-- A blank character. -/
def blank : CharTest := Text.isBlank

/-- A space or a tab. -/
def gap : CharTest := fun character => character == ' ' || character == '\t'

/-- One test or another. -/
def or (left right : CharTest) : CharTest :=
  fun character => left character || right character

/-- The first test without the characters of the second. -/
def except (left right : CharTest) : CharTest :=
  fun character => left character && !right character

/-- The same letter up to simple case folding. -/
def folded (wanted : Char) : CharTest :=
  let small := wanted.toLower
  fun character =>
    character.toLower == small ||
      (small == 's' && character == '\u017f') ||
      (small == 'k' && character == '\u212a')

end CharTest

namespace Pattern

/-- One pattern, then another, with the characters that come first tested first. -/
def append : Pattern → Pattern → Pattern
  | first, .empty => first
  | .empty, second => second
  | .next test tail, second => .next test (append tail second)
  | .seq first middle, second => .seq first (append middle second)
  | first, second => .seq first second

instance : Append Pattern := ⟨append⟩

/-- One character that passes a test. -/
def char (test : CharTest) : Pattern := .next test .empty

/-- A fixed text. -/
def literal (text : String) : Pattern :=
  text.toList.foldr (fun character rest => .next (.only character) rest) .empty

/-- A fixed text up to the case of its letters. -/
def foldedLiteral (text : String) : Pattern :=
  text.toList.foldr (fun character rest => .next (.folded character) rest) .empty

/-- One pattern after the other. -/
def sequence (patterns : List Pattern) : Pattern :=
  patterns.foldr append .empty

/-- A pattern that fits nowhere. -/
def never : Pattern := char fun _ => false

/-- The first of the patterns that leads to a match; without patterns, nothing is consumed. -/
def choice : List Pattern → Pattern
  | [] => .empty
  | [last] => last
  | first :: others => .alt first (choice others)

/-- A pattern or nothing. -/
def optional (pattern : Pattern) : Pattern :=
  .alt pattern .empty

/-- One or more characters that pass a test. -/
def oneOrMore (test : CharTest) : Pattern :=
  .next test (.many test)

/-- One or more rounds of a pattern. -/
def plus (pattern : Pattern) : Pattern :=
  pattern ++ star pattern

/-- At most so many rounds of a pattern. -/
def atMost (pattern : Pattern) : Nat → Pattern
  | 0 => .empty
  | rounds + 1 => optional (pattern ++ atMost pattern rounds)

/-- Between `least` and `most` rounds of a pattern. -/
def between (pattern : Pattern) (least most : Nat) : Pattern :=
  sequence (List.replicate least pattern ++ [atMost pattern (most - least)])

/-- The condition that the text ends. -/
def textEnd : Pattern := .anchor .textEnd

/-- The condition that a line starts. -/
def lineStart : Pattern := .anchor .lineStart

/-- The condition that a line ends. -/
def lineEnd : Pattern := .anchor .lineEnd

/-- The condition that a word starts or ends. -/
def wordEdge : Pattern := .anchor .wordEdge

/-- Any number of spaces and tabs. -/
def gaps : Pattern := .many .gap

/-- Any number of blank characters. -/
def blanks : Pattern := .many .blank

/-- A line that starts here, after any indentation. -/
def indented : Pattern := lineStart ++ gaps

/-- Everything up to the end of the line. -/
def restOfLine : Pattern := .many .inLine

/-- The shortest stretch of text up to a closing pattern, or all of the text. -/
def upTo (closing : Pattern) : Pattern :=
  few .anything ++ alt closing textEnd

/-- A whole word out of a list. -/
def words (listed : List String) : Pattern :=
  sequence [wordEdge, choice (listed.map literal), wordEdge]

/-- A whole word out of a list, up to the case of its letters. -/
def foldedWords (listed : List String) : Pattern :=
  sequence [wordEdge, choice (listed.map foldedLiteral), wordEdge]

end Pattern

end SourcePreview
