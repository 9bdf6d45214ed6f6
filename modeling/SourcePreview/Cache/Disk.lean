import SourcePreview.Cache.Entry
import SourcePreview.Cache.Eviction
import SourcePreview.Cache.Key
import SourcePreview.FileTree.Access

/-!
# The disk tier

Every entry is a file of its own, named by its key, in a directory that several processes may
share.  A new entry is written to a temporary file, which is then renamed, so that an entry is
never seen half written.  The modification time of an entry is the time of its last use.  After a
number of writes the tier is swept: the entries used longest ago are removed until the bounds
hold.
-/

namespace SourcePreview

/-- Where the entries are, and how many there may be. -/
structure DiskConfig where
  directory : Path
  maxEntries : Nat
  maxBytes : Nat
  /-- After how many writes the tier is swept; it is swept after each if this is zero. -/
  cleanupEvery : Nat
deriving DecidableEq, Repr

/-- The bounds and the rhythm of sweeps where nothing else is said. -/
def DiskConfig.standard (directory : Path) : DiskConfig :=
  ⟨directory, 500, 64 * 1024 * 1024, 20⟩

/-- Why the disk tier cannot be used. -/
inductive CacheError where
  /-- The directory cannot be made. -/
  | directory (path : Path) (reason : SystemError)
  /-- No file can be written in the directory. -/
  | unavailable (path : Path) (reason : SystemError)
  /-- A file or the directory cannot be read or changed. -/
  | file (path : Path) (reason : SystemError)
deriving DecidableEq, Repr

namespace CacheError

/-- The text of an error. -/
def message : CacheError → String
  | .directory path reason =>
    "failed to create cache directory " ++ path.display ++ ": " ++ reason.message
  | .unavailable path reason =>
    "cache directory " ++ path.display ++ " is not usable: " ++ reason.message
  | .file path reason => "I/O error on " ++ path.display ++ ": " ++ reason.message

/-- What the system says about an error. -/
def reason : CacheError → SystemError
  | .directory _ reason => reason
  | .unavailable _ reason => reason
  | .file _ reason => reason

/-- Whether somebody should look into an error: no directory, although nothing is in its place. -/
def isUnexpected : CacheError → Bool
  | .directory _ reason => reason.kind != .alreadyExists
  | _ => false

end CacheError

/-- An open disk tier. -/
structure DiskTier where
  config : DiskConfig
  /-- How many entries were written since the last sweep. -/
  writesSinceSweep : Nat
deriving DecidableEq, Repr

namespace DiskTier

/-- How old a temporary file must be to have been left behind: ten minutes. -/
def staleAge : Int := 600 * Timestamp.perSecond

/-- The name of the next temporary file of the process.  While the process runs no other one uses
it, but a process that had the same number may have left a file of that name behind. -/
def temporaryName (tree : FileTree) (name : String) : String :=
  "." ++ name ++ "." ++ toString tree.process ++ "." ++ toString tree.named ++ ".tmp"

/-- Removes a file that may be gone already. -/
def removeTolerant (tree : FileTree) (path : Path) : FileTree × Except CacheError Bool :=
  match tree.removeFile path with
  | .ok changed => (changed, .ok true)
  | .error .notFound => (tree, .ok false)
  | .error reason => (tree, .error (.file path reason))

/-- The tree without a file that nobody needs any more, if it can be removed. -/
def discard (tree : FileTree) (path : Path) : FileTree :=
  (removeTolerant tree path).1

/-- Makes sure that files can be written in a directory, by writing one and removing it. -/
def probe (system : FileSystem) (directory : Path) : FileSystem × Except CacheError Unit :=
  let path := directory.child (temporaryName system.tree "probe")
  match system.countName.writeFile path (Text.encode "glance".toList) with
  | (written, .error reason) => (written.discard path, .error (.unavailable directory reason))
  | (written, .ok ()) =>
    match written.removeFile path with
    | .ok removed => (removed, .ok ())
    | .error reason => (written.discard path, .error (.unavailable directory reason))

/-- Opens the tier in a file system and makes its directory if that is missing. -/
@[irreducible]
def openIn (system : FileSystem) (config : DiskConfig) :
    FileSystem × Except CacheError DiskTier :=
  match system.tree.createDirectories config.directory with
  | (made, .error reason) =>
    ({ system with tree := made }, .error (.directory config.directory reason))
  | (made, .ok ()) =>
    match probe { system with tree := made } config.directory with
    | (probed, .error failure) => (probed, .error failure)
    | (probed, .ok ()) => (probed, .ok ⟨config, 0⟩)

/-- Opens the tier where there are no links and all rights. -/
def openAt (tree : FileTree) (config : DiskConfig) : FileTree × Except CacheError DiskTier :=
  let (system, opened) := openIn (.plain tree) config
  (system.tree, opened)

/-- The path of the entry with a name, if the name is that of a key. -/
def entryPath? (tier : DiskTier) (name : String) : Option Path :=
  if Key.isName name then some (tier.config.directory.child name) else none

/-- The entry in a file and the file system after its use.  An entry that cannot be marked as used
is found all the same.  A file that is no entry of this format is removed, if it can be. -/
def readFrom (system : FileSystem) (path : Path) : FileSystem × Option StyledText :=
  match system.fileAt path with
  | .error _ => (system, none)
  | .ok file =>
    match Entry.decode file.bytes with
    | .ok styled => ((system.touch path).toOption.getD system, some styled)
    | .error _ => (system.discard path, none)

/-- The entry with a name and the file system after its use. -/
def find (tier : DiskTier) (system : FileSystem) (name : String) :
    FileSystem × Option StyledText :=
  match tier.entryPath? name with
  | some path => readFrom system path
  | none => (system, none)

/-- The entry with a name and the tree after its use, where there are no links and all rights. -/
def getByName (tier : DiskTier) (tree : FileTree) (name : String) :
    FileTree × Option StyledText :=
  let (system, found) := tier.find (.plain tree) name
  (system.tree, found)

/-- The entry of a key and the tree after its use. -/
def get (tier : DiskTier) (tree : FileTree) (key : Key) : FileTree × Option StyledText :=
  tier.getByName tree key.name

/-- Writes a file in place of another one, all at once. -/
def replaceFile (system : FileSystem) (temporary path : Path) (bytes : Bytes) :
    FileSystem × Except SystemError Unit :=
  match system.writeFile temporary bytes with
  | (written, .error reason) => (written.discard temporary, .error reason)
  | (written, .ok ()) =>
    match written.renameFile temporary path with
    | .ok renamed => (renamed, .ok ())
    | .error reason => (written.discard temporary, .error reason)

/-- Writes the entry of a key in a file system. -/
@[irreducible]
def storeIn (tier : DiskTier) (system : FileSystem) (key : Key) (styled : StyledText) :
    FileSystem × Except CacheError Unit :=
  let path := tier.config.directory.child key.name
  let temporary := tier.config.directory.child (temporaryName system.tree key.name)
  match replaceFile system.countName temporary path (Entry.encode styled) with
  | (changed, .ok ()) => (changed, .ok ())
  | (changed, .error reason) => (changed, .error (.file path reason))

/-- Writes the entry of a key where there are no links and all rights. -/
def store (tier : DiskTier) (tree : FileTree) (key : Key) (styled : StyledText) :
    FileTree × Except CacheError Unit :=
  let (system, stored) := tier.storeIn (.plain tree) key styled
  (system.tree, stored)

/-- The file with a name, if it is an entry. -/
def scannedFile? (directory : Path) (tree : FileTree) (name : String) : Option ScannedEntry :=
  match tree.listedNode? directory (Text.encode name.toList) with
  | some (.file file) =>
    if Key.isName name then some ⟨directory.child name, file.size, file.modified⟩ else none
  | _ => none

/-- Whether the file with a name is temporary and was left behind. -/
def isStale (directory : Path) (tree : FileTree) (name : String) : Bool :=
  match tree.listedNode? directory (Text.encode name.toList) with
  | some (.file file) =>
    !Key.isName name && name.endsWith ".tmp" &&
      staleAge < tree.clock.nanoseconds - file.modified.nanoseconds
  | _ => false

/-- The entries in the directory, and the tree without the temporary files that were left
behind. -/
def scan (tier : DiskTier) (tree : FileTree) :
    FileTree × Except CacheError (List ScannedEntry) :=
  let directory := tier.config.directory
  match tree.list directory with
  | .error reason => (tree, .error (.file directory reason))
  | .ok files =>
    let names := files.filterMap fun file => (Text.decode? file).map String.ofList
    let entries := names.filterMap (scannedFile? directory tree)
    let stale := names.filter (isStale directory tree)
    (stale.foldl (fun tree name => discard tree (directory.child name)) tree, .ok entries)

/-- An attempt to remove an entry. -/
def removeEntry (path : Path) (tree : FileTree) : Removal × FileTree :=
  match removeTolerant tree path with
  | (changed, .ok true) => (.removed, changed)
  | (changed, .ok false) => (.alreadyGone, changed)
  | (changed, .error _) => (.failed, changed)

/-- Removes the entries used longest ago until the bounds hold, and counts them. -/
def cleanup (tier : DiskTier) (tree : FileTree) : FileTree × Except CacheError Nat :=
  match tier.scan tree with
  | (scanned, .error failure) => (scanned, .error failure)
  | (scanned, .ok entries) =>
    let bounds : Eviction.Bounds := ⟨tier.config.maxEntries, tier.config.maxBytes⟩
    let (count, swept) := Eviction.evictOldest removeEntry bounds entries scanned
    (swept, .ok count)

/-- Counts a write, and sweeps the tier when it is time for that. -/
def settle (tier : DiskTier) (tree : FileTree) : DiskTier × FileTree :=
  let writes := tier.writesSinceSweep + 1
  if max tier.config.cleanupEvery 1 ≤ writes then
    ({ tier with writesSinceSweep := 0 }, (tier.cleanup tree).1)
  else ({ tier with writesSinceSweep := writes }, tree)

/-- Writes the entry of a key, and sweeps the tier when it is time for that.  A failure leaves
everything as it was. -/
def set (tier : DiskTier) (tree : FileTree) (key : Key) (styled : StyledText) :
    DiskTier × FileTree :=
  match tier.store tree key styled with
  | (changed, .error _) => (tier, changed)
  | (changed, .ok ()) => tier.settle changed

/-- Removes entries and counts those that were there; the first failure is kept. -/
def removeEach :
    (failure : Option CacheError) → (count : Nat) → List ScannedEntry → FileTree →
      FileTree × Except CacheError Nat
  | some failure, _, [], tree => (tree, .error failure)
  | none, count, [], tree => (tree, .ok count)
  | failure, count, entry :: entries, tree =>
    match removeTolerant tree entry.path with
    | (changed, .ok true) => removeEach failure (count + 1) entries changed
    | (changed, .ok false) => removeEach failure count entries changed
    | (changed, .error other) => removeEach (failure.or (some other)) count entries changed

/-- Removes all entries and counts them. -/
def clear (tier : DiskTier) (tree : FileTree) : FileTree × Except CacheError Nat :=
  match tier.scan tree with
  | (scanned, .error failure) => (scanned, .error failure)
  | (scanned, .ok entries) => removeEach none 0 entries scanned

/-- How many entries there are and how many bytes they have. -/
structure Stats where
  entries : Nat
  bytes : Nat
deriving DecidableEq, Repr

/-- The number of the entries and of their bytes. -/
def stats (tier : DiskTier) (tree : FileTree) : FileTree × Except CacheError Stats :=
  match tier.scan tree with
  | (scanned, .error failure) => (scanned, .error failure)
  | (scanned, .ok entries) => (scanned, .ok ⟨entries.length, Eviction.totalSize entries⟩)

end DiskTier

end SourcePreview
