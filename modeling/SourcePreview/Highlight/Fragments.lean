import SourcePreview.Pattern.Build

/-!
# Pattern fragments

Comments, string literals, numbers and names that several language tables share.
-/

namespace SourcePreview.Fragment

open Pattern

/-- A fixed opening text and the rest of the line. -/
def lineComment (opening : String) : Pattern :=
  literal opening ++ restOfLine

/-- A comment that closes with a fixed text or not at all. -/
def closedComment (opening closing : String) : Pattern :=
  literal opening ++ upTo (literal closing)

/-- A comment between a slash with a star and a star with a slash. -/
def blockComment : Pattern := closedComment "/*" "*/"

/-- A comment from two slashes on. -/
def slashComment : Pattern := lineComment "//"

/-- A comment from a hash on. -/
def hashComment : Pattern := lineComment "#"

/-- A comment from a hash on that starts a line or follows a space or a tab. -/
def spacedHashComment : Pattern :=
  sequence [.alt lineStart (.char .gap), hashComment]

/-- A string on one line between two marks, in which a backslash takes the next character with
it. -/
def lineString (mark : Char) : Pattern :=
  let plain := CharTest.outside (String.ofList [mark, '\\', '\n'])
  sequence
    [.char (.only mark), .units [[plain], [.only '\\', .inLine]], .char (.only mark)]

/-- A string between two marks that may run over lines, in which a backslash takes the next
character with it. -/
def textString (mark : Char) : Pattern :=
  let plain := CharTest.outside (String.ofList [mark, '\\'])
  sequence
    [.char (.only mark), .units [[plain], [.only '\\', .anything]], .char (.only mark)]

/-- A string between two marks without escapes. -/
def rawString (mark : Char) : Pattern :=
  sequence
    [.char (.only mark), many fun character => character != mark, .char (.only mark)]

/-- A string between two marks in which a doubled mark stands for one. -/
def doubledString (mark : Char) : Pattern :=
  sequence
    [.char (.only mark),
      .units [[fun character => character != mark], [.only mark, .only mark]],
      .char (.only mark)]

/-- A string between double quotes on one line. -/
def doubleQuoted : Pattern := lineString '"'

/-- A string between single quotes on one line. -/
def singleQuoted : Pattern := lineString '\''

/-- A character literal: one plain character, or an escape of at most ten characters. -/
def characterLiteral : Pattern :=
  sequence
    [literal "'",
      .alt
        (sequence [literal "\\", .char .inLine, atMost (.char (.outside "'\n")) 8])
        (.char (.outside "'\\\n")),
      literal "'"]

/-- A string between tripled double quotes, closed or not. -/
def tripleDouble : Pattern := closedComment "\"\"\"" "\"\"\""

/-- A string between tripled single quotes, closed or not. -/
def tripleSingle : Pattern := closedComment "'''" "'''"

/-- A comment of the markup languages, closed or not. -/
def markupComment : Pattern := closedComment "<!--" "-->"

/-- A character data section, closed or not. -/
def characterData : Pattern := closedComment "<![CDATA[" "]]>"

/-- A digit or an underscore. -/
def digitOrUnderscore : CharTest := .or .digit (.only '_')

/-- A zero, one of two letters and digits of some base or underscores. -/
def basedNumber (letters : String) (digits : CharTest) : Pattern :=
  sequence
    [literal "0", .char (.among letters), oneOrMore (.or digits (.only '_'))]

/-- The exponent of a number. -/
def exponent : Pattern :=
  sequence [.char (.among "eE"), optional (.char (.among "+-")), oneOrMore .digit]

/-- Digits with underscores, perhaps a fraction and perhaps an exponent. -/
def groupedDecimal : Pattern :=
  sequence
    [.char .digit, many digitOrUnderscore,
      optional (sequence [literal ".", .char .digit, many digitOrUnderscore]),
      optional exponent]

/-- A number in base two, eight, sixteen or ten. -/
def anyBaseNumber : Pattern :=
  choice
    [basedNumber "xX" .hexDigit, basedNumber "bB" (.among "01"),
      basedNumber "oO" (.among "01234567"), groupedDecimal]

/-- A number of a programming language with any number of type suffixes. -/
def suffixedNumber : Pattern :=
  sequence
    [wordEdge, anyBaseNumber,
      .star
        (.alt (.char (.among "uUlLfF"))
          (char (.among "uif") ++ choice (["8", "16", "32", "64", "128", "size"].map literal))),
      wordEdge]

/-- A number of a programming language with at most one letter after it. -/
def numberWithLetter (letter : String) : Pattern :=
  sequence [wordEdge, anyBaseNumber, optional (literal letter), wordEdge]

/-- Digits and perhaps a fraction. -/
def decimal : Pattern :=
  oneOrMore .digit ++ optional (literal "." ++ oneOrMore .digit)

/-- Digits and perhaps a fraction, as a word of their own. -/
def plainNumber : Pattern :=
  sequence [wordEdge, decimal, wordEdge]

/-- A decimal number with perhaps a sign and perhaps an exponent. -/
def signedNumber : Pattern :=
  sequence [optional (literal "-"), wordEdge, decimal, optional exponent, wordEdge]

/-- A letter, a digit or an underscore of the ASCII characters. -/
def nameChar : CharTest := .or (.or .letter .asciiDigit) (.only '_')

/-- A letter or an underscore of the ASCII characters. -/
def nameStart : CharTest := .or .letter (.only '_')

/-- A name that starts like one of ASCII and goes on with word characters. -/
def name : Pattern :=
  char nameStart ++ many .word

/-- A word that starts with a capital and has a small letter after it. -/
def capitalizedWord : Pattern :=
  sequence
    [wordEdge, .char .upper, many nameChar, .char .lower, many nameChar, wordEdge]

/-- A word character, a colon, a dot or a hyphen. -/
def markupNameChar : CharTest := .or .word (.among ":.-")

/-- A name of an element or an attribute. -/
def markupName : Pattern :=
  char nameStart ++ many markupNameChar

/-- A reference to a variable after a dollar sign, in braces. -/
def bracedVariable : Pattern :=
  sequence [literal "$\x7b", many (.outside "\x7d\n"), literal "\x7d"]

/-- A reference to a variable after a dollar sign, by its name. -/
def namedVariable : Pattern :=
  literal "$" ++ name

end SourcePreview.Fragment
