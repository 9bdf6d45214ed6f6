import SourcePreview.Highlight.Fragments
import SourcePreview.Highlight.Rule

/-!
# Rule tables of compiled languages

Comments and strings come first, then numbers and markup such as attributes and directives, then
words: keywords before types before builtin names.
-/

namespace SourcePreview.RuleTable

open Pattern Fragment RuleEntry

/-- An optional `b`, for byte strings. -/
def byteMark : Pattern := optional (literal "b")

/-- Comments, strings, numbers, attributes, lifetimes, words and macro calls of Rust. -/
def rust : RuleTable :=
  [lexical
      [(slashComment, .comment), (blockComment, .comment),
        (sequence
          [byteMark, literal "r", oneOrMore (.only '#'), literal "\"", .few .anything,
            literal "\"", oneOrMore (.only '#')], .string),
        (sequence [byteMark, literal "r", rawString '"'], .string),
        (byteMark ++ textString '"', .string),
        (byteMark ++ characterLiteral, .string)],
    numbers suffixedNumber,
    markup .tag
      (sequence
        [literal "#", optional (literal "!"), literal "[", many (.outside "]\n"),
          literal "]"]),
    markup .builtin (sequence [literal "'", name, wordEdge]),
    keywords
      ["as", "async", "await", "break", "const", "continue", "crate", "dyn", "else", "enum",
        "extern", "false", "fn", "for", "if", "impl", "in", "let", "loop", "match", "mod", "move",
        "mut", "pub", "ref", "return", "self", "Self", "static", "struct", "super", "trait",
        "true", "type", "unsafe", "use", "where", "while", "yield"],
    types
      ["i8", "i16", "i32", "i64", "i128", "isize", "u8", "u16", "u32", "u64", "u128", "usize",
        "f32", "f64", "bool", "char", "str"],
    typePattern capitalizedWord,
    builtinPattern
      (sequence
        [wordEdge, .char (.or .lower (.only '_')),
          many (.or .lower (.or .asciiDigit (.only '_'))), literal "!"]),
    builtins
      ["Some", "None", "Ok", "Err", "Box", "Vec", "String", "Option", "Result"]]

/-- Comments, strings, numbers, directives and keywords of C. -/
def cCore : RuleTable :=
  [lexical
      [(slashComment, .comment), (blockComment, .comment),
        (sequence [literal "R\"(", .few .anything, literal ")\""], .string),
        (doubleQuoted, .string), (characterLiteral, .string)],
    numbers suffixedNumber,
    markup .tag
      (sequence
        [indented, literal "#", gaps, oneOrMore (.or .lower (.only '_'))]),
    markupWithin .string
      (sequence [indented, literal "#", gaps, literal "include", gaps])
      (sequence [literal "<", many (.outside ">\n"), literal ">"])
      .empty,
    keywords
      ["auto", "break", "case", "const", "continue", "default", "do", "else", "enum", "extern",
        "for", "goto", "if", "inline", "register", "restrict", "return", "sizeof", "static",
        "struct", "switch", "typedef", "union", "volatile", "while"]]

/-- Types and builtin names of C. -/
def cNames : RuleTable :=
  [types
      ["void", "char", "short", "int", "long", "float", "double", "signed", "unsigned", "bool",
        "size_t", "ssize_t", "int8_t", "int16_t", "int32_t", "int64_t", "uint8_t", "uint16_t",
        "uint32_t", "uint64_t", "FILE", "auto", "wchar_t"],
    typePattern capitalizedWord,
    builtins
      ["NULL", "printf", "fprintf", "sprintf", "snprintf", "malloc", "calloc", "realloc",
        "free", "memcpy", "memset", "strlen", "strcmp", "std", "cout", "cerr", "endl", "stdin",
        "stdout", "stderr"]]

/-- The rules of C. -/
def c : RuleTable :=
  cCore ++ cNames

/-- The rules of C with the keywords that C++ adds. -/
def cpp : RuleTable :=
  cCore ++
    [keywords
      ["class", "namespace", "template", "typename", "public", "private", "protected",
        "virtual", "override", "final", "new", "delete", "this", "throw", "try", "catch", "using",
        "operator", "friend", "constexpr", "noexcept", "nullptr", "true", "false", "explicit",
        "mutable", "static_cast", "dynamic_cast", "reinterpret_cast", "const_cast", "co_await",
        "co_return", "co_yield", "decltype"]] ++
    cNames

/-- Comments, strings, numbers and words of Go. -/
def go : RuleTable :=
  [lexical
      [(slashComment, .comment), (blockComment, .comment), (rawString '`', .string),
        (doubleQuoted, .string), (characterLiteral, .string)],
    numbers suffixedNumber,
    keywords
      ["break", "case", "chan", "const", "continue", "default", "defer", "else", "fallthrough",
        "for", "func", "go", "goto", "if", "import", "interface", "map", "package", "range",
        "return", "select", "struct", "switch", "type", "var"],
    types
      ["bool", "byte", "complex64", "complex128", "error", "float32", "float64", "int", "int8",
        "int16", "int32", "int64", "rune", "string", "uint", "uint8", "uint16", "uint32",
        "uint64", "uintptr", "any"],
    typePattern capitalizedWord,
    builtins
      ["append", "cap", "close", "complex", "copy", "delete", "imag", "len", "make", "new",
        "panic", "print", "println", "real", "recover", "nil", "true", "false", "iota"]]

/-- Comments, strings, numbers, annotations and words of Java and its relatives. -/
def java : RuleTable :=
  [lexical
      [(slashComment, .comment), (blockComment, .comment), (tripleDouble, .string),
        (doubleQuoted, .string), (characterLiteral, .string)],
    numbers suffixedNumber,
    markup .tag (literal "@" ++ name),
    keywords
      ["abstract", "assert", "break", "case", "catch", "class", "const", "continue", "default",
        "do", "else", "enum", "extends", "final", "finally", "for", "goto", "if", "implements",
        "import", "instanceof", "interface", "native", "new", "package", "private", "protected",
        "public", "return", "static", "strictfp", "super", "switch", "synchronized", "this",
        "throw", "throws", "transient", "try", "volatile", "while", "var", "record", "sealed",
        "permits", "yield", "fun", "val", "when", "object", "true", "false", "null"],
    types
      ["boolean", "byte", "char", "short", "int", "long", "float", "double", "void"],
    typePattern capitalizedWord,
    builtins
      ["System", "String", "Object", "Integer", "List", "Map", "println"]]

/-- Comments, strings, numbers, attributes, directives and words of Swift. -/
def swift : RuleTable :=
  [lexical
      [(slashComment, .comment), (blockComment, .comment), (tripleDouble, .string),
        (doubleQuoted, .string)],
    numbers suffixedNumber,
    markup .tag
      (.alt (literal "@" ++ name)
        (sequence
          [literal "#",
            choice
              (["if", "else", "elseif", "endif", "available", "selector", "warning",
                "error"].map literal),
            wordEdge])),
    keywords
      ["actor", "as", "associatedtype", "async", "await", "break", "case", "catch", "class",
        "continue", "default", "defer", "deinit", "do", "else", "enum", "extension",
        "fallthrough", "false", "fileprivate", "final", "for", "func", "guard", "if", "import",
        "in", "init", "inout", "internal", "is", "let", "mutating", "nil", "open", "operator",
        "override", "private", "protocol", "public", "repeat", "rethrows", "return", "self",
        "Self", "some", "any", "static", "struct", "subscript", "super", "switch", "throw",
        "throws", "true", "try", "typealias", "var", "weak", "where", "while"],
    typePattern capitalizedWord,
    builtins
      ["print", "debugPrint", "fatalError", "precondition", "assert", "min", "max", "zip",
        "stride"]]

end SourcePreview.RuleTable
