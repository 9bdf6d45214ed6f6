import SourcePreview.Language.Names
import SourcePreview.Pattern.Build
import SourcePreview.Pattern.Scan
import SourcePreview.Text.Cut
import SourcePreview.Text.Lines

/-!
# Finding the language of a file

A file gets its language from its name, or else from the interpreter that its first line calls, or
else from the shape of the beginning of its text.  Only a bounded number of bytes of the text is
looked at, and a file that nothing fits is plain text.
-/

namespace SourcePreview.Language

open Pattern

/-- How many bytes of a text its shape is judged by. -/
def sampleBytes : Nat := 512

/-- How many bytes of a first line an interpreter is looked for in. -/
def shebangBytes : Nat := 256

/-- What comes after the last slash of a word. -/
def afterLastSlash (word : List Char) : List Char :=
  (word.reverse.takeWhile (· != '/')).reverse

/-- The word that names the interpreter of a first line.  If that is `env`, it is the first of
the words after it that does not start with a hyphen. -/
def interpreterWord? : (words : List (List Char)) → Option (List Char)
  | [] => none
  | program :: arguments =>
    let name := afterLastSlash program
    if name = "env".toList then
      (arguments.find? fun word => word.head? != some '-').map afterLastSlash
    else some name

/-- The language of the interpreter that a first line calls, from the text behind its mark. -/
def ofCall? (called : String) : Option Language := do
  let beginning ← Text.beginning? shebangBytes called
  let line ← (Text.lines beginning.toList).head?
  let name ← interpreterWord? (Text.blankSeparatedWords line)
  ofInterpreter? (String.ofList name)

/-- The language of the interpreter that a text calls in its first line. -/
def ofShebang? (text : String) : Option Language :=
  match text.toList with
  | '#' :: '!' :: called => ofCall? (String.ofList called)
  | _ => none

/-- A quoted key on one line. -/
def quotedKey : Pattern :=
  sequence
    [literal "\"", .units [[.outside "\"\\\n"], [.only '\\', .inLine]], literal "\""]

/-- An object, perhaps as the first item of an array, up to the colon after its first key. -/
def jsonObjectStart : Pattern :=
  sequence
    [.anchor .textStart, blanks,
      .alt (literal "\x7b") (sequence [literal "[", blanks, literal "\x7b"]),
      blanks, quotedKey, blanks, literal ":"]

/-- An array up to the beginning of its first item, if that is no object. -/
def jsonArrayStart : Pattern :=
  sequence
    [.anchor .textStart, blanks, literal "[", blanks,
      choice
        [literal "\"", sequence [optional (literal "-"), char .digit],
          literal "true" ++ wordEdge, literal "false" ++ wordEdge,
          literal "null" ++ wordEdge, literal "["]]

/-- The beginning of an XML declaration. -/
def xmlDeclaration : Pattern :=
  sequence [.anchor .textStart, blanks, literal "<?xml", wordEdge]

/-- The root of a property list or its document type, perhaps after a declaration. -/
def propertyListStart : Pattern :=
  sequence
    [.anchor .textStart, blanks,
      optional
        (sequence [literal "<?xml", .many (.outside ">"), literal ">", blanks]),
      .alt
        (sequence
          [literal "<!DOCTYPE", oneOrMore .blank, literal "plist", wordEdge])
        (literal "<plist" ++ wordEdge)]

/-- The root of a page or its document type in any case, perhaps after a comment on one line. -/
def pageStart : Pattern :=
  sequence
    [.anchor .textStart, blanks,
      optional
        (sequence [literal "<!--", .few .inLine, literal "-->", blanks]),
      .alt
        (sequence
          [foldedLiteral "<!DOCTYPE", oneOrMore .blank, foldedLiteral "html", wordEdge])
        (foldedLiteral "<html" ++ wordEdge)]

/-- An opening or empty tag. -/
def tagStart : Pattern :=
  sequence
    [.anchor .textStart, blanks, literal "<", char (.or .letter (.only '_')),
      .many (.or .word (.among ":.-")),
      optional (sequence [char .blank, .many (.outside "<>")]),
      optional (literal "/"), literal ">"]

/-- A line of three hyphens at the beginning, perhaps after a version line. -/
def documentStart : Pattern :=
  sequence
    [.anchor .textStart,
      optional (sequence [literal "%YAML", restOfLine, literal "\n"]),
      literal "---", gaps,
      .alt (optional (literal "\r") ++ literal "\n") textEnd]

/-- A key at the beginning of a line, perhaps in a list. -/
def keyLine : Pattern :=
  sequence
    [indented, optional (literal "-" ++ oneOrMore .gap), char (.or .letter (.only '_')),
      .many (.or .word (.among ".-")), literal ":", .alt (char .gap) lineEnd]

/-- The beginning of a text that its shape is judged by: without byte order marks, cut between
characters. -/
def sample? (text : String) : Option (List Char) :=
  (Text.beginning? sampleBytes (String.ofList (text.toList.dropWhile (· == '\ufeff')))).map
    String.toList

/-- The language that a beginning of a text has the shape of. -/
def shapeOf? (beginning : List Char) : Option Language :=
  if jsonObjectStart.fitsAtStart beginning || jsonArrayStart.fitsAtStart beginning then
    some .json
  else if propertyListStart.fitsAtStart beginning then some .plist
  else if pageStart.fitsAtStart beginning then some .html
  else if xmlDeclaration.fitsAtStart beginning || tagStart.fitsAtStart beginning then
    some .xml
  else if documentStart.fitsAtStart beginning || 2 ≤ keyLine.count beginning then
    some .yaml
  else none

/-- The language that a text has the shape of, as far as its beginning shows. -/
def ofShape? (text : String) : Option Language :=
  (sample? text).bind shapeOf?

/-- The language of a file, from its path and, if that does not tell, from its text. -/
def classify (path : Path) (text : Option String) : Language :=
  match ofPath? path, text with
  | some language, _ => language
  | none, none => .plainText
  | none, some text => ((ofShebang? text).or (ofShape? text)).getD .plainText

end SourcePreview.Language
