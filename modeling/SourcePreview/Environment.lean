import SourcePreview.FileTree.Operations

/-!
# Directories of the user

Settings, themes and logs are kept in one directory, and finished previews in another.  Where
these are is told by variables of the environment or else follows from the home directory.  The
directory for previews may also be given by the settings, but a variable goes before that.
-/

namespace SourcePreview

/-- What the environment says about directories. -/
structure Environment where
  /-- The home directory by its variable. -/
  home : Option Path
  /-- The home directory of the account. -/
  accountHome : Option Path
  /-- The directory for the settings of all programs. -/
  configHome : Option Path
  /-- The directory for the caches of all programs. -/
  cacheHome : Option Path
  /-- The directory for finished previews. -/
  previewCache : Option Path
deriving Repr

namespace Environment

/-- The name of the directories that belong to this program. -/
def programDirectory : String := "glance"

/-- The home directory: that of the variable unless this is empty. -/
def homeDirectory? (environment : Environment) : Option Path :=
  (environment.home.filter (· ≠ ⟨[]⟩)).or environment.accountHome

/-- The directory for settings. -/
def configDirectory? (environment : Environment) : Option Path :=
  (environment.configHome.or (environment.homeDirectory?.map (·.child ".config"))).map
    (·.child programDirectory)

/-- The directory for the themes of the user. -/
def themesDirectory? (environment : Environment) : Option Path :=
  environment.configDirectory?.map (·.child "themes")

/-- The file of the settings. -/
def settingsFile? (environment : Environment) : Option Path :=
  environment.configDirectory?.map (·.child "config.yaml")

/-- The directory for logs. -/
def logsDirectory? (environment : Environment) : Option Path :=
  environment.configDirectory?.map (·.child "logs")

/-- The directory for finished previews if nothing else is said. -/
def defaultCacheDirectory? (environment : Environment) : Option Path :=
  (environment.cacheHome.or (environment.homeDirectory?.map (·.child ".cache"))).map
    fun directory => (directory.child programDirectory).child "highlights"

/-- The directory for finished previews: that of the variable unless this is empty, or else the
one in the settings, or else the default. -/
def cacheDirectory? (environment : Environment) (configured : Option Path) : Option Path :=
  ((environment.previewCache.filter (· ≠ ⟨[]⟩)).or configured).or
    environment.defaultCacheDirectory?

/-- Why there is no directory for logs. -/
inductive DirectoryError where
  /-- Nothing says where the directories of the user are. -/
  | unknown
  /-- A directory cannot be made. -/
  | notCreated (path : Path) (reason : SystemError)
deriving DecidableEq, Repr

/-- The text of an error. -/
def DirectoryError.message : DirectoryError → String
  | .unknown => "No config directory available"
  | .notCreated path reason =>
    "Failed to create directory " ++ path.display ++ ": " ++ reason.message

/-- Makes a directory and those on the way to it, as far as they are missing. -/
def ensure (tree : FileTree) (path : Path) : FileTree × Except DirectoryError Path :=
  let (changed, result) := tree.createDirectories path
  (changed, match result with
    | .ok () => .ok path
    | .error reason => .error (.notCreated path reason))

/-- Makes the directory for settings and in it the one for logs. -/
def ensureLogs (environment : Environment) (tree : FileTree) :
    FileTree × Except DirectoryError Path :=
  match environment.configDirectory? with
  | none => (tree, .error .unknown)
  | some directory =>
    match ensure tree directory with
    | (changed, .ok _) => ensure changed (directory.child "logs")
    | (changed, .error failure) => (changed, .error failure)

end Environment

end SourcePreview
