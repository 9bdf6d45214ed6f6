import SourcePreview.Language.Basic
import SourcePreview.Path
import SourcePreview.Text.Blank

/-!
# Languages by name

Files are recognised by their whole name or by their extension, scripts by the interpreter that
their first line calls, and people may give the identifier of a language or one of its
extensions.
-/

namespace SourcePreview.Language

/-- File names that decide the language whatever their extension. -/
def fileNames : List (String × Language) :=
  [("Makefile", .makefile), ("makefile", .makefile), ("GNUmakefile", .makefile),
    ("Dockerfile", .dockerfile), ("Containerfile", .dockerfile), ("Cargo.lock", .toml),
    ("Pipfile", .toml), ("Gemfile", .ruby), ("Rakefile", .ruby), ("Podfile", .ruby),
    ("Vagrantfile", .ruby), ("Brewfile", .ruby), (".bashrc", .shell), (".bash_profile", .shell),
    (".zshrc", .shell), (".zprofile", .shell), (".profile", .shell), (".envrc", .shell),
    (".gitconfig", .ini), (".editorconfig", .ini), (".npmrc", .ini), (".babelrc", .json),
    (".eslintrc", .json), (".prettierrc", .json), (".clang-format", .yaml)]

/-- Extensions of file names, in lower case. -/
def extensions : List (String × Language) :=
  [("json", .json), ("jsonc", .json), ("geojson", .json), ("xcstrings", .json), ("yaml", .yaml),
    ("yml", .yaml), ("toml", .toml), ("ini", .ini), ("cfg", .ini), ("conf", .ini),
    ("properties", .ini), ("xml", .xml), ("svg", .xml), ("xsd", .xml), ("xsl", .xml),
    ("storyboard", .xml), ("xib", .xml), ("csproj", .xml), ("plist", .plist),
    ("entitlements", .plist), ("mobileconfig", .plist), ("html", .html), ("htm", .html),
    ("xhtml", .html), ("css", .css), ("scss", .css), ("less", .css), ("md", .markdown),
    ("markdown", .markdown), ("mdown", .markdown), ("js", .javaScript), ("mjs", .javaScript),
    ("cjs", .javaScript), ("jsx", .javaScript), ("ts", .typeScript), ("mts", .typeScript),
    ("cts", .typeScript), ("tsx", .typeScript), ("rs", .rust), ("c", .c), ("h", .c),
    ("cc", .cpp), ("cpp", .cpp), ("cxx", .cpp), ("hpp", .cpp), ("hh", .cpp), ("hxx", .cpp),
    ("m", .c), ("mm", .cpp), ("go", .go), ("java", .java), ("kt", .java), ("swift", .swift),
    ("py", .python), ("pyi", .python), ("pyw", .python), ("rb", .ruby), ("gemspec", .ruby),
    ("sh", .shell), ("bash", .shell), ("zsh", .shell), ("ksh", .shell), ("fish", .shell),
    ("command", .shell), ("sql", .sql), ("mk", .makefile), ("mak", .makefile),
    ("dockerfile", .dockerfile)]

/-- Names of interpreters, without a version. -/
def interpreters : List (String × Language) :=
  [("sh", .shell), ("bash", .shell), ("zsh", .shell), ("dash", .shell), ("ksh", .shell),
    ("fish", .shell), ("python", .python), ("pypy", .python), ("node", .javaScript),
    ("nodejs", .javaScript), ("deno", .typeScript), ("bun", .javaScript),
    ("ts-node", .typeScript), ("ruby", .ruby), ("swift", .swift), ("make", .makefile)]

/-- The text with the capitals of the ASCII alphabet made small. -/
def lowerCase (text : String) : String :=
  String.ofList (text.toList.map Char.toLower)

/-- The language of an identifier or extension that somebody gives: blanks around it, dots before
it and the case of its letters do not count. -/
def ofName? (name : String) : Option Language :=
  let bare := (Text.trimBlank name.toList).dropWhile (· == '.')
  let small := lowerCase (String.ofList bare)
  (ofId? small).or (extensions.lookup small)

/-- The language of an extension, as written or else in lower case. -/
def ofExtension? (extension : String) : Option Language :=
  (extensions.lookup extension).or (extensions.lookup (lowerCase extension))

/-- A name as text, if its bytes are one. -/
def nameText? (name : Bytes) : Option String :=
  (Text.decode? name).map String.ofList

/-- The language of a path by the name of its entry, or else by its extension. -/
def ofPath? (path : Path) : Option Language :=
  let byName := (path.fileName?.bind nameText?).bind fun name => fileNames.lookup name
  byName.or ((path.extension?.bind nameText?).bind ofExtension?)

/-- The language that an interpreter runs, by its name as written or else without the digits and
dots of a version at its end. -/
def ofInterpreter? (name : String) : Option Language :=
  let isVersion := fun character : Char => character.isDigit || character == '.'
  let bare := (name.toList.reverse.dropWhile isVersion).reverse
  (interpreters.lookup name).or (interpreters.lookup (String.ofList bare))

end SourcePreview.Language
