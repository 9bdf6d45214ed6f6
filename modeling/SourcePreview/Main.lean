import SourcePreview.CommandLine.Program

/-!
# The command line

The program itself works on a tree of files in memory.  Here the files that it may need are put
into such a tree, and after the run the files that it has changed are written back.
-/

namespace SourcePreview.RealFiles

/-- What there is under a name, if it is a directory or a file.  The bytes of a file that is too
large to be shown are left out. -/
def nodeOf (name : String) : IO (Option Node) := do
  try
    let metadata ← (← IO.FS.realPath name).metadata
    let time := Timestamp.ofSeconds metadata.modified.sec metadata.modified.nsec.toNat
    let size := metadata.byteSize.toNat
    match metadata.type with
    | .dir => return some .directory
    | .file =>
      if Source.maxSize < size then return some (.file ⟨[], size, time⟩)
      return some (.file ⟨(← IO.FS.readBinFile name).toList, 0, time⟩)
    | _ => return none
  catch _ => return none

/-- Puts what there is at the end of a path into the tree. -/
def loadLast (tree : FileTree) (path : Path) : IO FileTree := do
  match tree.place path with
  | .error _ => return tree
  | .ok place =>
    if (tree.node? place.location).isSome then return tree
    match ← nodeOf path.display with
    | some node => return tree.put place.location node
    | none => return tree

/-- Puts what there is along a path into the tree. -/
def load (tree : FileTree) (path : Path) : IO FileTree :=
  (path.ancestors.reverse ++ [path]).foldlM loadLast tree

/-- Puts a directory and the files in it into the tree. -/
def loadDirectory (tree : FileTree) (path : Path) : IO FileTree := do
  let tree ← load tree path
  try
    let entries ← (← IO.FS.realPath path.display).readDir
    entries.toList.foldlM (fun tree entry => loadLast tree (path.child entry.fileName)) tree
  catch _ => return tree

/-- The time now: that of a file that is written for the purpose. -/
def now : IO Timestamp := do
  let (_, path) ← IO.FS.createTempFile
  let modified := (← path.metadata).modified
  IO.FS.removeFile path
  return Timestamp.ofSeconds modified.sec modified.nsec.toNat

/-- The name of a location. -/
def nameOf (location : Location) : String :=
  (location.foldl (fun path name => path.join ⟨name⟩) (⟨[Path.slash]⟩ : Path)).display

/-- Writes a file in place of another one, all at once. -/
def writeFile (name : String) (file : File) : IO Unit := do
  let temporary := name ++ ".new"
  IO.FS.writeBinFile temporary ⟨file.bytes.toArray⟩
  IO.FS.rename temporary name

/-- Writes back what has changed from one tree to the next. -/
def save (before later : FileTree) : IO Unit := do
  for (location, _) in before.nodes do
    if (later.node? location).isNone then IO.FS.removeFile (nameOf location)
  for (location, node) in later.nodes.reverse do
    if before.node? location ≠ some node then
      match node with
      | .directory => IO.FS.createDirAll (nameOf location)
      | .file file => writeFile (nameOf location) file

/-- The value of a variable. -/
def pathIn (name : String) : IO (Option Path) := do
  return (← IO.getEnv name).map Path.ofString

/-- What the environment says about directories. -/
def environment : IO Environment := do
  return {
    home := ← pathIn "HOME"
    accountHome := none
    configHome := ← pathIn "XDG_CONFIG_HOME"
    cacheHome := ← pathIn "XDG_CACHE_HOME"
    previewCache := ← pathIn "GLANCE_CACHE_DIR" }

/-- The tree of the files that a run may need. -/
def treeFor (environment : Environment) (words : List String) : IO FileTree := do
  let directory := Path.ofString (toString (← IO.currentDir))
  let tree ← load (FileTree.empty (← now)) directory
  let working := ((tree.place directory).toOption.map Place.location).getD []
  let tree ← words.foldlM (fun tree word => load tree (.ofString word)) { tree with working }
  let tree ← environment.settingsFile?.elim (pure tree) (load tree)
  let tree ← environment.logsDirectory?.elim (pure tree) (load tree)
  let tree ← environment.themesDirectory?.elim (pure tree) (loadDirectory tree)
  let cache := (Settings.load environment tree).cacheDirectory? environment
  cache.elim (pure tree) (loadDirectory tree)

end SourcePreview.RealFiles

open SourcePreview in
/-- Runs the program on the files of the system. -/
def main (words : List String) : IO UInt32 := do
  let environment ← RealFiles.environment
  let tree ← RealFiles.treeFor environment words
  let stdout ← IO.getStdout
  let result := Program.run environment tree (← stdout.isTty) (words.map Word.ofString)
  stdout.write ⟨result.console.stdout.toArray⟩
  stdout.flush
  (← IO.getStderr).putStr result.console.stderr
  try RealFiles.save tree result.tree
  catch failure => (← IO.getStderr).putStrLn (toString failure)
  return UInt32.ofNat result.exitCode
