/-!
# Languages

The languages that a file can be in.  Each has a stable lower-case identifier, used in cache keys,
entries and on the command line, and a name to show to people.
-/

namespace SourcePreview

/-- The language of a text. -/
inductive Language where
  | plainText
  | json
  | yaml
  | toml
  | ini
  | xml
  | plist
  | html
  | css
  | markdown
  | javaScript
  | typeScript
  | rust
  | c
  | cpp
  | go
  | java
  | swift
  | python
  | ruby
  | shell
  | sql
  | makefile
  | dockerfile
deriving DecidableEq, Repr, Inhabited

namespace Language

/-- Every language, plain text first. -/
def all : List Language :=
  [.plainText, .json, .yaml, .toml, .ini, .xml, .plist, .html, .css, .markdown, .javaScript,
    .typeScript, .rust, .c, .cpp, .go, .java, .swift, .python, .ruby, .shell, .sql, .makefile,
    .dockerfile]

/-- The stable identifier of a language. -/
def id : Language → String
  | .plainText => "plaintext"
  | .json => "json"
  | .yaml => "yaml"
  | .toml => "toml"
  | .ini => "ini"
  | .xml => "xml"
  | .plist => "plist"
  | .html => "html"
  | .css => "css"
  | .markdown => "markdown"
  | .javaScript => "javascript"
  | .typeScript => "typescript"
  | .rust => "rust"
  | .c => "c"
  | .cpp => "cpp"
  | .go => "go"
  | .java => "java"
  | .swift => "swift"
  | .python => "python"
  | .ruby => "ruby"
  | .shell => "shell"
  | .sql => "sql"
  | .makefile => "makefile"
  | .dockerfile => "dockerfile"

/-- The name of a language for people. -/
def displayName : Language → String
  | .plainText => "Plain Text"
  | .json => "JSON"
  | .yaml => "YAML"
  | .toml => "TOML"
  | .ini => "INI"
  | .xml => "XML"
  | .plist => "Property List"
  | .html => "HTML"
  | .css => "CSS"
  | .markdown => "Markdown"
  | .javaScript => "JavaScript"
  | .typeScript => "TypeScript"
  | .rust => "Rust"
  | .c => "C"
  | .cpp => "C++"
  | .go => "Go"
  | .java => "Java"
  | .swift => "Swift"
  | .python => "Python"
  | .ruby => "Ruby"
  | .shell => "Shell"
  | .sql => "SQL"
  | .makefile => "Makefile"
  | .dockerfile => "Dockerfile"

/-- The language with an identifier. -/
def ofId? (id : String) : Option Language :=
  all.find? fun language => language.id == id

@[simp]
theorem ofId?_id (language : Language) : ofId? language.id = some language := by
  cases language <;> decide

/-- Whether texts in the language are highlighted at all. -/
def isHighlighted (language : Language) : Bool :=
  language != .plainText

/-- Whether the language is markup that only carries data, so that its tags, keys and attributes
are left plain. -/
def isDataMarkup (language : Language) : Bool :=
  language == .plist

end Language

end SourcePreview
