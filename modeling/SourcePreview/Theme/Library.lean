import SourcePreview.Environment
import SourcePreview.Theme.Parse
import SourcePreview.Theme.Shipped

/-!
# Finding themes

A theme of the user is a file in the directory for themes and goes before a shipped theme of the
same name.  A list of themes has those of the user first, by the names of their files, and then
the shipped ones that none of these stands for.
-/

namespace SourcePreview

/-- Where a theme comes from. -/
inductive ThemeSource where
  | user
  | shipped
deriving DecidableEq, Repr

/-- A theme as it is listed. -/
structure ThemeEntry where
  id : String
  name : String
  source : ThemeSource
deriving DecidableEq, Repr

namespace Theme

/-- The theme in the file at a path. -/
def ofFile (tree : FileTree) (path : Path) : Except ThemeError Theme :=
  match tree.readText path with
  | .ok text => ofText text
  | .error reason => .error (.unreadable path reason)

/-- The file of a theme of the user, if it is there. -/
def userFile? (environment : Environment) (tree : FileTree) (id : String) : Option Path :=
  (environment.themesDirectory?.map (·.child (id ++ ".yaml"))).filter tree.isPresent

/-- The theme of a name: that of the user, or else the shipped one. -/
def load (environment : Environment) (tree : FileTree) (id : String) : Except ThemeError Theme :=
  match userFile? environment tree id with
  | some path => ofFile tree path
  | none => ShippedTheme.load id

/-- The theme of a name, or the one that stands in for it. -/
def loadOrFallback (environment : Environment) (tree : FileTree) (id : String) : Theme :=
  match load environment tree id with
  | .ok theme => theme
  | .error _ => fallback

/-- The name that a theme is listed by: its own, or that of its file if it cannot be had. -/
def listedName (id : String) : Except ThemeError Theme → String
  | .ok theme => theme.name
  | .error _ => id

/-- The name that a file gives its theme, if the file is one of a theme. -/
def idOfFile? (file : Bytes) : Option String :=
  match Path.splitName file with
  | (stem, some extension) =>
    if extension = Text.encode "yaml".toList ∨ extension = Text.encode "yml".toList then
      (Text.decode? stem).map String.ofList
    else none
  | (_, none) => none

/-- The entries of the files of a directory, in order, one for each name. -/
def userEntries (tree : FileTree) (directory : Path) :
    (seen : List String) → List Bytes → List ThemeEntry
  | _, [] => []
  | seen, file :: files =>
    match idOfFile? file with
    | some id =>
      if id ∈ seen then userEntries tree directory seen files
      else
        ⟨id, listedName id (ofFile tree (directory.join ⟨file⟩)), .user⟩ ::
          userEntries tree directory (id :: seen) files
    | none => userEntries tree directory seen files

/-- The names in a directory, in the order of their bytes; one that cannot be listed has none. -/
def sortedNames (tree : FileTree) (directory : Path) : List Bytes :=
  match tree.list directory with
  | .ok names => names.mergeSort fun left right => decide (left ≤ right)
  | .error _ => []

/-- The themes of the user. -/
def userThemes (environment : Environment) (tree : FileTree) : List ThemeEntry :=
  match environment.themesDirectory? with
  | some directory => userEntries tree directory [] (sortedNames tree directory)
  | none => []

/-- All themes that can be asked for by name. -/
def listAll (environment : Environment) (tree : FileTree) : List ThemeEntry :=
  let users := userThemes environment tree
  let unseen := ShippedTheme.all.filter fun theme => users.all fun entry => entry.id != theme.id
  users ++ unseen.map fun theme =>
    ⟨theme.id, listedName theme.id theme.document.resolve, .shipped⟩

end Theme

end SourcePreview
