import SourcePreview.Theme.Document

/-!
# Shipped themes

The themes that are there without any theme file: a dark and a light one and two in the colours of
a well-known site.
-/

namespace SourcePreview

/-- A theme that is there without a file. -/
structure ShippedTheme where
  /-- The name that settings and requests call it by. -/
  id : String
  document : ThemeDocument

namespace ShippedTheme

/-- An upright style of normal weight. -/
def upright (color : String) : Option StyleDocument :=
  some ⟨color, false, false⟩

/-- A bold style. -/
def bold (color : String) : Option StyleDocument :=
  some ⟨color, true, false⟩

/-- A slanted style. -/
def italic (color : String) : Option StyleDocument :=
  some ⟨color, false, true⟩

/-- Strong colours on a dark ground. -/
def dark : ShippedTheme :=
  ⟨"dark", 1, "Glance Dark", none, "#1E1E1E", "#D4D4D4", fun
    | .comment => italic "#6A9955"
    | .string => upright "#CE9178"
    | .number => upright "#B5CEA8"
    | .keyword => bold "#569CD6"
    | .type => upright "#4EC9B0"
    | .builtin => upright "#DCDCAA"
    | .tag => upright "#9CDCFE"
    | .plain => upright "#D4D4D4"⟩

/-- Strong colours on a white ground. -/
def light : ShippedTheme :=
  ⟨"light", 1, "Glance Light", none, "#FFFFFF", "#1F1F1F", fun
    | .comment => italic "#008000"
    | .string => upright "#A31515"
    | .number => upright "#098658"
    | .keyword => bold "#0000FF"
    | .type => upright "#267F99"
    | .builtin => upright "#795E26"
    | .tag => upright "#800000"
    | .plain => upright "#1F1F1F"⟩

/-- The colours of GitHub on a dark ground. -/
def gitHubDark : ShippedTheme :=
  ⟨"github-dark", 1, "GitHub Dark", none, "#0D1117", "#E6EDF3", fun
    | .comment => italic "#8B949E"
    | .string => upright "#A5D6FF"
    | .number => upright "#79C0FF"
    | .keyword => upright "#FF7B72"
    | .type => upright "#FFA657"
    | .builtin => upright "#D2A8FF"
    | .tag => upright "#7EE787"
    | .plain => upright "#E6EDF3"⟩

/-- The colours of GitHub on a white ground. -/
def gitHubLight : ShippedTheme :=
  ⟨"github-light", 1, "GitHub Light", none, "#FFFFFF", "#1F2328", fun
    | .comment => italic "#6E7781"
    | .string => upright "#0A3069"
    | .number => upright "#0550AE"
    | .keyword => upright "#CF222E"
    | .type => upright "#953800"
    | .builtin => upright "#8250DF"
    | .tag => upright "#116329"
    | .plain => upright "#1F2328"⟩

/-- The shipped themes in the order in which they are listed. -/
def all : List ShippedTheme :=
  [dark, light, gitHubDark, gitHubLight]

/-- The shipped theme of a name. -/
def load (id : String) : Except ThemeError Theme :=
  match all.find? fun theme => theme.id == id with
  | some theme => theme.document.resolve
  | none => .error (.unknown id)

end ShippedTheme

/-- The theme that stands in for one that cannot be had. -/
def Theme.fallback : Theme :=
  match ShippedTheme.dark.document.resolve with
  | .ok theme => theme
  | .error _ => ⟨"Glance Dark", Palette.standard⟩

end SourcePreview
