import SourcePreview.Theme.Document
import SourcePreview.Yaml.Fields

/-!
# Reading theme documents

A theme document is written as a YAML record.  The name, the version and the two colours must be
there, and so must the colour of every style that is given.
-/

namespace SourcePreview

/-- The style that a record gives. -/
def StyleDocument.ofNode? (document : Yaml.Document) (node : Yaml.Node) :
    Option StyleDocument := do
  let members ← document.members? node
  return {
    color := ← document.required? members "color" Yaml.Document.text?
    bold := ← Yaml.Document.orDefault? false document members "bold" Yaml.Document.bool?
    italic := ← Yaml.Document.orDefault? false document members "italic" Yaml.Document.bool? }

namespace ThemeDocument

/-- The key of the style of a token class in a record of styles. -/
def styleKey : TokenClass → String
  | .comment => "comment"
  | .string => "string"
  | .number => "number"
  | .keyword => "keyword"
  | .type => "type"
  | .builtin => "builtin"
  | .tag => "tag"
  | .plain => "plain"

/-- The styles that a record gives. -/
def tokensOfNode? (document : Yaml.Document) (node : Yaml.Node) :
    Option (TokenClass → Option StyleDocument) := do
  let members ← document.members? node
  let style? := fun tokenClass : TokenClass =>
    Yaml.Document.orDefault? none document members (styleKey tokenClass)
      (Yaml.Document.optional? StyleDocument.ofNode?)
  let styles ← TokenClass.all.mapM fun tokenClass =>
    (style? tokenClass).map fun style => (tokenClass, style)
  return fun tokenClass => (styles.lookup tokenClass).getD none

/-- The theme document that a record gives. -/
def ofNode? (document : Yaml.Document) (node : Yaml.Node) : Option ThemeDocument := do
  let members ← document.members? node
  return {
    version := ← document.required? members "version" (Yaml.Document.nat? UInt32.size)
    name := ← document.required? members "name" Yaml.Document.text?
    author := ← Yaml.Document.orDefault? none document members "author"
      (Yaml.Document.optional? Yaml.Document.text?)
    background := ← document.required? members "background" Yaml.Document.text?
    foreground := ← document.required? members "foreground" Yaml.Document.text?
    tokens := ← Yaml.Document.orDefault? (fun _ => none) document members "tokens"
      tokensOfNode? }

/-- The theme document that a text spells. -/
def parse? (text : String) : Option ThemeDocument := do
  let document ← Yaml.Document.parse? text
  ofNode? document document.root

end ThemeDocument

/-- The theme that a text describes. -/
def Theme.ofText (text : String) : Except ThemeError Theme :=
  match ThemeDocument.parse? text with
  | some document => document.resolve
  | none => .error .malformed

end SourcePreview
