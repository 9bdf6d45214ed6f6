import SourcePreview.Highlight.Fragments
import SourcePreview.Highlight.Rule

/-!
# Rule tables of scripting and query languages

Comments and strings come first; the order of the other rules decides which of two that meet
keeps the text.
-/

namespace SourcePreview.RuleTable

open Pattern Fragment RuleEntry

/-- Comments, strings, numbers, variables, keywords and builtin commands. -/
def shell : RuleTable :=
  [lexical
      [(spacedHashComment, .comment), (textString '"', .string), (rawString '\'', .string),
        (textString '`', .string)],
    numbers (sequence [wordEdge, oneOrMore .digit, wordEdge]),
    markup .tag
      (choice
        [bracedVariable, namedVariable,
          literal "$" ++ char (.or .asciiDigit (.among "@#?*!$-"))]),
    keywords
      ["if", "then", "else", "elif", "fi", "for", "while", "until", "do", "done", "case",
        "esac", "in", "function", "select", "return", "local", "export", "readonly", "declare",
        "time"],
    builtins
      ["echo", "printf", "cd", "pwd", "test", "read", "set", "unset", "shift", "exit", "source",
        "alias", "eval", "exec", "trap", "wait", "kill", "true", "false", "getopts", "mkdir",
        "rm", "cp", "mv", "grep", "sed", "awk", "cat"]]

/-- Comments, strings with doubled quotes, numbers, and words in any case. -/
def sql : RuleTable :=
  [lexical
      [(lineComment "--", .comment), (blockComment, .comment),
        (doubledString '\'', .string), (doubledString '"', .string)],
    numbers plainNumber,
    foldedKeywords
      ["select", "from", "where", "insert", "into", "values", "update", "set", "delete",
        "create", "drop", "alter", "table", "index", "view", "join", "inner", "left", "right",
        "outer", "full", "on", "as", "and", "or", "not", "null", "is", "in", "like", "between",
        "group", "by", "order", "having", "limit", "offset", "union", "all", "distinct",
        "primary", "key", "foreign", "references", "default", "unique", "case", "when", "then",
        "else", "end", "exists", "begin", "commit", "rollback", "transaction", "with",
        "returning", "asc", "desc", "if"],
    foldedTypes
      ["int", "integer", "bigint", "smallint", "serial", "varchar", "char", "text", "boolean",
        "bool", "date", "time", "timestamp", "float", "real", "double", "decimal", "numeric",
        "blob", "json", "jsonb", "uuid"],
    foldedBuiltins
      ["count", "sum", "avg", "min", "max", "coalesce", "now", "lower", "upper", "length",
        "substr", "cast", "round"]]

/-- A tag of embedded markup, to its end if nothing but blanks comes before it, or a decorator. -/
def embeddedTag : Pattern :=
  .alt
    (sequence
      [literal "<", optional (literal "/"), .char .letter, many (.or .word (.among ".-")),
        optional (sequence [blanks, optional (literal "/"), literal ">"])])
    (literal "@" ++ name)

/-- Comments, strings, numbers, tags and keywords of JavaScript. -/
def scriptCore : RuleTable :=
  [lexical
      [(slashComment, .comment), (blockComment, .comment), (textString '`', .string),
        (doubleQuoted, .string), (singleQuoted, .string)],
    numbers (numberWithLetter "n"),
    markup .tag embeddedTag,
    keywords
      ["async", "await", "break", "case", "catch", "class", "const", "continue", "debugger",
        "default", "delete", "do", "else", "export", "extends", "finally", "for", "from",
        "function", "if", "import", "in", "instanceof", "let", "new", "of", "return", "static",
        "super", "switch", "this", "throw", "try", "typeof", "var", "void", "while", "with",
        "yield", "true", "false", "null", "undefined"]]

/-- Capitalised types and builtin names of JavaScript. -/
def scriptNames : RuleTable :=
  [typePattern capitalizedWord,
    builtins
      ["console", "window", "document", "globalThis", "require", "module", "exports", "process",
        "JSON", "Math", "Promise", "setTimeout", "setInterval", "fetch"]]

/-- The rules of JavaScript. -/
def javaScript : RuleTable :=
  scriptCore ++ scriptNames

/-- The rules of JavaScript with the keywords and types that TypeScript adds. -/
def typeScript : RuleTable :=
  scriptCore ++
    [keywords
      ["abstract", "as", "declare", "enum", "implements", "interface", "keyof", "namespace",
        "private", "protected", "public", "readonly", "satisfies", "type", "infer", "is"],
    types
      ["any", "unknown", "never", "string", "number", "boolean", "bigint", "symbol", "object",
        "void"]] ++
    scriptNames

/-- At most two of the letters that may stand before a string. -/
def stringLetters : Pattern :=
  atMost (.char (.among "rbufRBUF")) 2

/-- Comments, strings, numbers, decorators and words of Python. -/
def python : RuleTable :=
  [lexical
      [(hashComment, .comment), (stringLetters ++ tripleDouble, .string),
        (stringLetters ++ tripleSingle, .string),
        (stringLetters ++ doubleQuoted, .string),
        (stringLetters ++ singleQuoted, .string)],
    numbers (numberWithLetter "j"),
    markup .tag (sequence [indented, literal "@", oneOrMore (.or .word (.only '.'))]),
    keywords
      ["and", "as", "assert", "async", "await", "break", "class", "continue", "def", "del",
        "elif", "else", "except", "finally", "for", "from", "global", "if", "import", "in", "is",
        "lambda", "nonlocal", "not", "or", "pass", "raise", "return", "try", "while", "with",
        "yield", "match", "case", "True", "False", "None"],
    types
      ["int", "float", "str", "bytes", "bool", "list", "dict", "set", "tuple", "object",
        "complex", "frozenset"],
    typePattern capitalizedWord,
    builtins
      ["print", "len", "range", "open", "enumerate", "zip", "map", "filter", "sorted",
        "reversed", "isinstance", "issubclass", "super", "self", "cls", "input", "abs", "min",
        "max", "sum", "any", "all", "iter", "next", "repr", "getattr", "setattr", "hasattr",
        "type", "id", "hash", "vars", "dir"]]

/-- A comment block between lines that start with its marks, closed or not. -/
def markedBlock : Pattern :=
  sequence [lineStart, literal "=begin", upTo (lineStart ++ literal "=end")]

/-- Comments, strings, numbers, symbols and variables, and words of Ruby. -/
def ruby : RuleTable :=
  [lexical
      [(markedBlock, .comment), (hashComment, .comment), (textString '"', .string),
        (singleQuoted, .string)],
    numbers suffixedNumber,
    markup .builtin
      (choice
        [sequence [literal ":", name, optional (.char (.among "?!"))],
          between (literal "@") 1 2 ++ name, namedVariable]),
    keywords
      ["alias", "and", "begin", "break", "case", "class", "def", "defined", "do", "else",
        "elsif", "end", "ensure", "false", "for", "if", "in", "module", "next", "nil", "not",
        "or", "redo", "rescue", "retry", "return", "self", "super", "then", "true", "undef",
        "unless", "until", "when", "while", "yield"],
    typePattern capitalizedWord,
    builtins
      ["puts", "print", "p", "require", "require_relative", "attr_accessor", "attr_reader",
        "attr_writer", "include", "extend", "raise", "lambda", "proc"]]

end SourcePreview.RuleTable
