import SourcePreview.Highlight.Fragments
import SourcePreview.Highlight.Rule

/-!
# Rule tables of data, markup and build languages

In JSON the object keys come before the strings, so that they keep a class of their own; in all
other tables comments and strings come first.
-/

namespace SourcePreview.RuleTable

open Pattern Fragment RuleEntry

/-- Object keys, strings, numbers and the three literal names. -/
def json : RuleTable :=
  [markupWithin .tag .empty doubleQuoted (blanks ++ literal ":"),
    lexical [(doubleQuoted, .string)],
    numbers signedNumber,
    keywords ["true", "false", "null"]]

/-- Comments, strings, mapping keys, document marks, anchors and scalars. -/
def yaml : RuleTable :=
  [lexical
      [(spacedHashComment, .comment), (doubleQuoted, .string), (singleQuoted, .string)],
    markupWithin .tag
      (sequence [indented, optional (literal "-" ++ oneOrMore .gap)])
      (char (.except (.outside "#'\"-") .blank) ++ few (.outside ":#\n"))
      (sequence [gaps, literal ":", .alt (.char .gap) lineEnd]),
    markup .keyword
      (sequence [lineStart, .alt (literal "---") (literal "..."), gaps, lineEnd]),
    markup .builtin
      (char (.among "&*") ++ oneOrMore (.or nameChar (.only '-'))),
    numbers signedNumber,
    keywords
      ["true", "false", "yes", "no", "on", "off", "null", "True", "False", "Null", "TRUE",
        "FALSE", "NULL"]]

/-- Comments, strings, table headers, keys and scalars. -/
def toml : RuleTable :=
  [lexical
      [(hashComment, .comment), (tripleDouble, .string), (tripleSingle, .string),
        (doubleQuoted, .string), (rawString '\'', .string)],
    markup .tag
      (sequence
        [indented, literal "[", optional (literal "["), oneOrMore (.outside "]\n"),
          literal "]", optional (literal "]")]),
    markupWithin .tag indented (oneOrMore (.or nameChar (.among ".-")))
      (gaps ++ literal "="),
    numbers
      (.alt
        (sequence [optional (.char (.among "+-")), wordEdge, groupedDecimal, wordEdge])
        (sequence
          [wordEdge, literal "0x", oneOrMore (.or .hexDigit (.only '_')), wordEdge])),
    keywords ["true", "false", "inf", "nan"]]

/-- Comments, strings, section headers, keys and scalars. -/
def ini : RuleTable :=
  [lexical
      [(sequence [indented, .char (.among ";#"), restOfLine], .comment),
        (doubleQuoted, .string)],
    markup .tag
      (sequence [indented, literal "[", oneOrMore (.outside "]\n"), literal "]"]),
    markupWithin .type indented
      (char (.except (.outside "=:;#[") .blank) ++ few (.outside "=:\n"))
      (gaps ++ char (.among "=:")),
    numbers plainNumber,
    keywords ["true", "false", "yes", "no", "on", "off"]]

/-- Comments and strings, tags, attribute names and references of the markup languages, without
numbers. -/
def markupCore : RuleTable :=
  [lexical
      [(markupComment, .comment), (characterData, .string),
        (sequence [literal "<!DOCTYPE", many (.outside ">"), literal ">"], .comment),
        (sequence [literal "<?", .few .anything, literal "?>"], .comment),
        (doubleQuoted, .string)],
    markup .tag
      (.alt
        (sequence [literal "<", optional (literal "/"), markupName])
        (optional (literal "/") ++ literal ">")),
    markupWithin .type (.char .blank) markupName (blanks ++ literal "="),
    markup .builtin
      (sequence
        [literal "&",
          choice
            [oneOrMore .letter, literal "#" ++ oneOrMore .digit,
              literal "#x" ++ oneOrMore .hexDigit],
          literal ";"])]

/-- The markup rules and numbers. -/
def xml : RuleTable :=
  markupCore ++ [numbers (sequence [optional (literal "-"), plainNumber])]

/-- A letter or a hyphen. -/
def propertyNameChar : CharTest := .or .letter (.only '-')

/-- Comments, strings, numbers with units, at-rules, properties, selectors and keywords. -/
def css : RuleTable :=
  [lexical
      [(blockComment, .comment), (slashComment, .comment), (doubleQuoted, .string),
        (singleQuoted, .string)],
    numbers
      (.alt
        (sequence [literal "#", between (.char .hexDigit) 3 8, wordEdge])
        (sequence
          [optional (literal "-"), wordEdge, decimal,
            optional
              (choice
                (["px", "em", "rem", "vh", "vw", "vmin", "vmax", "ch", "ex", "pt", "pc",
                  "cm", "mm", "in", "deg", "rad", "turn", "ms", "s", "fr", "%"].map
                    literal))])),
    markup .keyword (literal "@" ++ oneOrMore propertyNameChar),
    markupWithin .builtin (.notAfter propertyNameChar) (oneOrMore propertyNameChar)
      (sequence
        [blanks, literal ":", many (.outside ":\x7b;\n"), .char (.among ";\x7d\n")]),
    markup .tag
      (sequence
        [.char (.among ".#"), .char (.or .letter (.among "_-")),
          many (.or .word (.only '-'))]),
    markup .keyword (literal "!important" ++ wordEdge),
    keywords
      ["inherit", "initial", "unset", "none", "auto", "block", "inline", "flex", "grid",
        "absolute", "relative", "fixed", "sticky"]]

/-- A code block between two lines that start with a fence, closed or not. -/
def fencedBlock (fence : String) : Pattern :=
  sequence [indented, literal fence, upTo (indented ++ literal fence)]

/-- Emphasised text between two marks, with no mark and no line feed inside. -/
def emphasis (mark : Char) : Pattern :=
  let inside := CharTest.outside (String.ofList [mark, '\n'])
  sequence
    [.char (.only mark), .char (.except inside .blank), many inside, .char (.only mark)]

/-- Code, comments, headings, links, quotes, emphasis and list marks. -/
def markdown : RuleTable :=
  [lexical
      [(fencedBlock "```", .string), (fencedBlock "~~~", .string),
        (markupComment, .comment),
        (sequence [literal "`", oneOrMore (.outside "`\n"), literal "`"], .string)],
    markup .keyword
      (sequence [lineStart, between (literal "#") 1 6, .char .gap, restOfLine]),
    markup .keyword
      (sequence
        [lineStart, oneOrMore .inLine, literal "\n",
          .alt (oneOrMore (.only '=')) (oneOrMore (.only '-')), gaps, lineEnd]),
    markup .tag
      (sequence
        [optional (literal "!"), literal "[", many (.outside "]\n"), literal "](",
          many (.outside ")\n"), literal ")"]),
    markup .tag
      (sequence
        [literal "<http", optional (literal "s"), literal "://",
          oneOrMore (.except (.outside ">") .blank), literal ">"]),
    markup .comment (sequence [indented, literal ">", restOfLine]),
    markup .builtin
      (.alt
        (sequence [literal "**", oneOrMore (.outside "*\n"), literal "**"])
        (sequence [literal "__", oneOrMore (.outside "_\n"), literal "__"])),
    markup .type
      (.alt (emphasis '*') (sequence [wordEdge, emphasis '_', wordEdge])),
    markup .number
      (sequence
        [indented,
          .alt (.char (.among "-*+")) (oneOrMore .digit ++ char (.among ".)")),
          .char .gap])]

/-- Comments, strings, targets, variables and directives. -/
def makefile : RuleTable :=
  [lexical
      [(hashComment, .comment), (doubleQuoted, .string), (singleQuoted, .string)],
    markupWithin .tag lineStart
      (char (.or nameChar (.among "./%$()-")) ++ few (.outside ":=\n#\t"))
      (literal ":" ++ alt (.char (.outside "=")) lineEnd),
    markup .builtin
      (choice
        [sequence [literal "$(", many (.outside ")\n"), literal ")"], bracedVariable,
          literal "$" ++ char (.among "@<^?*%+")]),
    markupWithin .type indented
      (char nameStart ++ many (.or .word (.among ".-")))
      (sequence [gaps, optional (.char (.among ":+?!")), literal "="]),
    keywords
      ["ifeq", "ifneq", "ifdef", "ifndef", "else", "endif", "include", "define", "endef",
        "export", "override", "unexport", "vpath"],
    markup .keyword
      (sequence
        [lineStart, literal ".",
          choice (["PHONY", "SUFFIXES", "DEFAULT", "PRECIOUS", "SILENT"].map literal),
          wordEdge])]

/-- Comments, strings, instructions, variables and numbers. -/
def dockerfile : RuleTable :=
  [lexical
      [(indented ++ hashComment, .comment), (doubleQuoted, .string),
        (singleQuoted, .string)],
    keywordPattern
      (sequence
        [indented,
          choice
            (["FROM", "RUN", "CMD", "LABEL", "MAINTAINER", "EXPOSE", "ENV", "ADD", "COPY",
              "ENTRYPOINT", "VOLUME", "USER", "WORKDIR", "ARG", "ONBUILD", "STOPSIGNAL",
              "HEALTHCHECK", "SHELL"].map foldedLiteral),
          wordEdge]),
    foldedKeywords ["AS"],
    markup .builtin (.alt bracedVariable namedVariable),
    numbers
      (sequence
        [wordEdge, oneOrMore .digit, .star (literal "." ++ oneOrMore .digit),
          wordEdge])]

end SourcePreview.RuleTable
