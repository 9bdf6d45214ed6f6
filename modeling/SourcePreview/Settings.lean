import SourcePreview.Environment
import SourcePreview.Yaml.Fields
import SourcePreview.Yaml.Printer

/-!
# Settings

The settings of the user are kept as a YAML record.  A field that is missing has its default, and
so has every field if the file is missing or is no such record.
-/

namespace SourcePreview

/-- The settings of the disk tier. -/
structure DiskSettings where
  enabled : Bool
  maxEntries : Nat
  maxBytes : Nat
  /-- After how many writes the tier is swept. -/
  cleanupEvery : Nat
deriving DecidableEq, Repr

/-- The settings of the user. -/
structure Settings where
  theme : String
  /-- How many milliseconds highlighting may take. -/
  deadlineMs : Nat
  /-- How many lines a highlighted text may have. -/
  maxLines : Nat
  /-- How many previews the memory tier may hold. -/
  memoryEntries : Nat
  /-- The directory for finished previews. -/
  cacheDirectory : Option String
  disk : DiskSettings
deriving DecidableEq, Repr

/-- The settings of the disk tier where nothing else is said. -/
def DiskSettings.standard : DiskSettings :=
  ⟨true, 500, 64 * 1024 * 1024, 20⟩

/-- The bound of the numbers in settings. -/
def Settings.numberBound : Nat := UInt64.size

/-- The settings of the disk tier in a record. -/
def DiskSettings.ofNode? (document : Yaml.Document) (node : Yaml.Node) : Option DiskSettings := do
  let members ← document.members? node
  let number := fun name fallback =>
    Yaml.Document.orDefault? fallback document members name
      (Yaml.Document.nat? Settings.numberBound)
  return {
    enabled := ← Yaml.Document.orDefault? standard.enabled document members "enabled"
      Yaml.Document.bool?
    maxEntries := ← number "max_entries" standard.maxEntries
    maxBytes := ← number "max_bytes" standard.maxBytes
    cleanupEvery := ← number "cleanup_every" standard.cleanupEvery }

namespace Settings

/-- The settings where nothing else is said. -/
def standard : Settings :=
  ⟨"dark", 500, 10000, 64, none, .standard⟩

/-- The settings in a record. -/
def ofNode? (document : Yaml.Document) (node : Yaml.Node) : Option Settings := do
  let members ← document.members? node
  let number := fun name fallback =>
    Yaml.Document.orDefault? fallback document members name (Yaml.Document.nat? numberBound)
  return {
    theme := ← Yaml.Document.orDefault? standard.theme document members "theme"
      Yaml.Document.text?
    deadlineMs := ← number "deadline_ms" standard.deadlineMs
    maxLines := ← number "max_lines" standard.maxLines
    memoryEntries := ← number "memory_entries" standard.memoryEntries
    cacheDirectory := ← Yaml.Document.orDefault? none document members "cache_dir"
      (Yaml.Document.optional? Yaml.Document.text?)
    disk := ← Yaml.Document.orDefault? .standard document members "disk" DiskSettings.ofNode? }

/-- The settings that a text spells. -/
def parse? (text : String) : Option Settings := do
  let document ← Yaml.Document.parse? text
  ofNode? document document.root

/-- The settings in the file at a path, or those where nothing else is said. -/
def loadFrom (tree : FileTree) (path : Path) : Settings :=
  match tree.readText path with
  | .ok text => (parse? text).getD standard
  | .error _ => standard

/-- The settings of the user. -/
def load (environment : Environment) (tree : FileTree) : Settings :=
  match environment.settingsFile? with
  | some path => loadFrom tree path
  | none => standard

/-- The text of a truth value. -/
def boolWord (value : Bool) : Yaml.Value :=
  .word (if value then "true" else "false")

/-- The text of a number. -/
def numberWord (value : Nat) : Yaml.Value :=
  .word (toString value)

/-- The fields of settings in order; the directory is left out if it is not given. -/
def members (settings : Settings) : List (String × Yaml.Value) :=
  [("theme", .text settings.theme), ("deadline_ms", numberWord settings.deadlineMs),
    ("max_lines", numberWord settings.maxLines),
    ("memory_entries", numberWord settings.memoryEntries)] ++
  (settings.cacheDirectory.map fun directory => ("cache_dir", .text directory)).toList ++
  [("disk",
    .record
      [("enabled", boolWord settings.disk.enabled),
        ("max_entries", numberWord settings.disk.maxEntries),
        ("max_bytes", numberWord settings.disk.maxBytes),
        ("cleanup_every", numberWord settings.disk.cleanupEvery)])]

/-- The text that spells settings. -/
def print (settings : Settings) : String :=
  Yaml.printRecord settings.members

/-- Why settings cannot be saved. -/
inductive SaveError where
  /-- Nothing says where the settings are kept. -/
  | noDirectory
  /-- The directory cannot be made. -/
  | directory (reason : SystemError)
  /-- The file cannot be written. -/
  | file (path : Path) (reason : SystemError)
deriving DecidableEq, Repr

/-- The text of an error. -/
def SaveError.message : SaveError → String
  | .noDirectory => "No config directory available"
  | .directory reason => "Failed to create config directory: " ++ reason.message
  | .file path reason =>
    "Failed to write config to " ++ path.display ++ ": " ++ reason.message

/-- Saves settings to the file at a path and makes the directories on the way to it. -/
def saveTo (settings : Settings) (tree : FileTree) (path : Path) :
    FileTree × Except SaveError Unit :=
  let (made, result) :=
    match path.parent? with
    | some parent => tree.createDirectories parent
    | none => (tree, .ok ())
  match result with
  | .error reason => (made, .error (.directory reason))
  | .ok () =>
    match made.writeFile path (Text.encode settings.print.toList) with
    | .ok written => (written, .ok ())
    | .error reason => (made, .error (.file path reason))

/-- Saves the settings of the user. -/
def save (settings : Settings) (environment : Environment) (tree : FileTree) :
    FileTree × Except SaveError Unit :=
  match environment.settingsFile? with
  | some path => settings.saveTo tree path
  | none => (tree, .error .noDirectory)

/-- The directory for finished previews. -/
def cacheDirectory? (settings : Settings) (environment : Environment) : Option Path :=
  environment.cacheDirectory? (settings.cacheDirectory.map Path.ofString)

end Settings

end SourcePreview
