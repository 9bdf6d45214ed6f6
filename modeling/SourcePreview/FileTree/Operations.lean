import SourcePreview.FileTree.Walk

/-!
# Using files and directories

Files are read, written, renamed and removed, and directories are made and listed, by path.  An
operation that fails leaves the tree as it was, except that some of the directories on the way to
the last one may have been made already.
-/

namespace SourcePreview.FileTree

/-- The file at the end of a path. -/
def fileAt (tree : FileTree) (path : Path) : Except SystemError File := do
  match ← tree.nodeAt path with
  | .file file => return file
  | .directory => throw .isDirectory

/-- The text of the file at the end of a path. -/
def readText (tree : FileTree) (path : Path) : Except SystemError String := do
  let file ← tree.fileAt path
  match Text.decode? file.bytes with
  | some characters => return String.ofList characters
  | none => throw .malformedText

/-- The names in the directory at the end of a path. -/
def list (tree : FileTree) (path : Path) : Except SystemError (List Bytes) := do
  let place ← tree.place path
  match ← tree.nodeAt path with
  | .directory => return tree.childNames place.location
  | .file _ => throw .notDirectory

/-- What is listed under a name in the directory at the end of a path.  It is looked at from the
directory, so that a path on which the name comes last may well be too long to be walked. -/
def listedNode? (tree : FileTree) (directory : Path) (name : Bytes) : Option Node :=
  match tree.place directory with
  | .ok place => tree.node? (place.location ++ [name])
  | .error _ => none

/-- Writes a file, in place of the one that is there. -/
def writeFile (tree : FileTree) (path : Path) (bytes : Bytes) : Except SystemError FileTree := do
  match ← tree.place path with
  | .directory _ => throw .isDirectory
  | .entry parent name slashed =>
    if slashed then throw .isDirectory
    match tree.node? (parent ++ [name]) with
    | some .directory => throw .isDirectory
    | _ => return tree.putBytes (parent ++ [name]) bytes

/-- Removes a file. -/
def removeFile (tree : FileTree) (path : Path) : Except SystemError FileTree := do
  match ← tree.nodeAt path with
  | .directory => throw .isDirectory
  | .file _ =>
    let place ← tree.place path
    return tree.erase place.location

/-- Moves a file to another place, where it replaces the file that is there. -/
def renameFile (tree : FileTree) (path target : Path) : Except SystemError FileTree := do
  let file ← tree.fileAt path
  let place ← tree.place path
  match ← tree.place target with
  | .directory _ => throw .isDirectory
  | .entry parent name slashed =>
    match tree.node? (parent ++ [name]) with
    | some .directory => throw .isDirectory
    | _ =>
      if slashed then throw .notDirectory
      return (tree.erase place.location).put (parent ++ [name]) (.file file)

/-- Sets the time of the latest change of a file. -/
def setModified (tree : FileTree) (path : Path) (time : Timestamp) :
    Except SystemError FileTree := do
  let file ← tree.fileAt path
  let place ← tree.place path
  return tree.put place.location (.file { file with modified := time })

/-- Marks a file as changed just now. -/
def touch (tree : FileTree) (path : Path) : Except SystemError FileTree :=
  let later := tree.tick
  later.setModified path later.clock

/-- Makes a directory. -/
def createDirectory (tree : FileTree) (path : Path) : Except SystemError FileTree := do
  match ← tree.place path with
  | .directory _ => throw .alreadyExists
  | .entry parent name _ =>
    match tree.node? (parent ++ [name]) with
    | some _ => throw .alreadyExists
    | none => return tree.put (parent ++ [name]) .directory

/-- Makes a directory unless it is there. -/
def ensureDirectory (tree : FileTree) (path : Path) : Except SystemError FileTree :=
  match tree.createDirectory path with
  | .ok changed => .ok changed
  | .error failure => if tree.isDirectory path then .ok tree else .error failure

/-- Makes directories one after the other up to the first failure. -/
def ensureEach : FileTree → List Path → FileTree × Except SystemError Unit
  | tree, [] => (tree, .ok ())
  | tree, path :: paths =>
    match tree.ensureDirectory path with
    | .ok changed => changed.ensureEach paths
    | .error failure => (tree, .error failure)

/-- Makes the first directory of some that are each the parent of the one before, after those of
the others that are missing. -/
def createChain (tree : FileTree) :
    (made : List Path) → List Path → FileTree × Except SystemError Unit
  | made, [] => tree.ensureEach made
  | made, path :: parents =>
    if path.bytes.isEmpty then tree.ensureEach made
    else
      match tree.ensureDirectory path with
      | .ok changed => changed.ensureEach made
      | .error .notFound => createChain tree (path :: made) parents
      | .error failure => (tree, .error failure)

/-- Makes a directory and those on the way to it, as far as they are missing. -/
def createDirectories (tree : FileTree) (path : Path) : FileTree × Except SystemError Unit :=
  tree.createChain [] (path :: path.ancestors)

end SourcePreview.FileTree
