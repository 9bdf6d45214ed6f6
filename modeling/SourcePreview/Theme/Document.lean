import SourcePreview.Path
import SourcePreview.SystemError
import SourcePreview.Text.Quoted
import SourcePreview.Theme.Palette

/-!
# Theme documents

A theme document names its colours by texts and may leave out the style of any token class.  It
becomes a theme once all its colours are read; a token class without a style then looks like the
rest of the text.
-/

namespace SourcePreview

/-- The style of a token class as a document gives it. -/
structure StyleDocument where
  color : String
  bold : Bool
  italic : Bool
deriving DecidableEq, Repr

/-- A theme as a document gives it. -/
structure ThemeDocument where
  version : Nat
  name : String
  author : Option String
  background : String
  foreground : String
  /-- The style of each token class that has one of its own. -/
  tokens : TokenClass → Option StyleDocument

/-- A named palette. -/
structure Theme where
  name : String
  palette : Palette
deriving DecidableEq, Repr

/-- Why there is no theme. -/
inductive ThemeError where
  /-- The file at a path cannot be read. -/
  | unreadable (path : Path) (reason : SystemError)
  /-- The text is no theme document. -/
  | malformed
  /-- The text stands for no colour. -/
  | invalidColor (text : String)
  /-- There is no theme of that name. -/
  | unknown (id : String)
deriving DecidableEq, Repr

/-- The text of an error; the reader of documents says what is wrong with a malformed one. -/
def ThemeError.messageWith (complaint : String) : ThemeError → String
  | .unreadable path reason =>
    "failed to read theme file " ++ path.display ++ ": " ++ reason.message
  | .malformed => "YAML parse error: " ++ complaint
  | .invalidColor text => "invalid color " ++ Text.quoted text
  | .unknown id => "unknown theme id: " ++ id

/-- The text of an error without the complaint of the reader. -/
def ThemeError.message (problem : ThemeError) : String :=
  problem.messageWith ""

namespace ThemeDocument

/-- The colour that a text stands for. -/
def color (text : String) : Except ThemeError Color :=
  match Color.ofHex? text with
  | some color => .ok color
  | none => .error (.invalidColor text)

/-- The style of a token class: its own, or else an upright one in the colour of the text. -/
def style (foreground : Color) : Option StyleDocument → Except ThemeError Style
  | none => .ok (.upright foreground)
  | some document => do return ⟨← color document.color, document.bold, document.italic⟩

/-- The theme of a document, unless one of its colours cannot be read. -/
def resolve (document : ThemeDocument) : Except ThemeError Theme := do
  let foreground ← color document.foreground
  let background ← color document.background
  let styleOf := fun tokenClass => style foreground (document.tokens tokenClass)
  let comments ← styleOf .comment
  let strings ← styleOf .string
  let numbers ← styleOf .number
  let keywords ← styleOf .keyword
  let types ← styleOf .type
  let builtins ← styleOf .builtin
  let tags ← styleOf .tag
  let plains ← styleOf .plain
  return ⟨document.name,
    ⟨background, foreground, comments, strings, numbers, keywords, types, builtins, tags,
      plains⟩⟩

end ThemeDocument

end SourcePreview
