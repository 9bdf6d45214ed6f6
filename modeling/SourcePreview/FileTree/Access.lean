import SourcePreview.FileTree.Operations

/-!
# Links and rights

A file system has more than directories and files: a name may be a symbolic link to a file, the
system may refuse a process to read a file, to change it or to use its name, and something may come
in between while a file is written.  A file is read and changed where a link leads to.  A name is
removed or given to another file where it is, so that a link is gone then and not the file behind
it.
-/

namespace SourcePreview

/-- What comes in between when a file is written: how many bytes are written by then, and why no
more are.  All of them may be written when it is found that they cannot be kept. -/
structure Interruption where
  written : Nat
  reason : SystemError
deriving DecidableEq, Repr

/-- Directories and files together with what else decides whether and where they are used. -/
structure FileSystem where
  tree : FileTree
  /-- The path that the symbolic link at a location leads to in the end, if there is one. -/
  link? : Location → Option Path
  /-- Why the file at a location cannot be read, if it cannot. -/
  unreadable? : Location → Option SystemError
  /-- Why no file can be made at a location and the one that is there cannot be changed, if so. -/
  unwritable? : Location → Option SystemError
  /-- What comes in between when a file is written at a location, if something does. -/
  interrupted? : Location → Option Interruption
  /-- Why the name at a location cannot be removed or given to another file, if it cannot. -/
  fixed? : Location → Option SystemError

namespace FileSystem

/-- A tree without links, with all rights to its files and nothing that comes in between. -/
def plain (tree : FileTree) : FileSystem :=
  ⟨tree, fun _ => none, fun _ => none, fun _ => none, fun _ => none, fun _ => none⟩

/-- The file system once one more temporary file is named. -/
def countName (system : FileSystem) : FileSystem :=
  { system with tree := system.tree.countName }

/-- The path of the file that a path leads to, once a link at its end is followed. -/
def follow (system : FileSystem) (path : Path) : Except SystemError Path := do
  let place ← system.tree.place path
  return (system.link? place.location).getD path

/-- Refuses for a reason, if there is one. -/
def refuse : Option SystemError → Except SystemError Unit
  | some reason => .error reason
  | none => .ok ()

/-- The links without that at a location. -/
def linksWithout (system : FileSystem) (removed : Location) : Location → Option Path :=
  fun location => if location = removed then none else system.link? location

/-- The file at the end of a path. -/
def fileAt (system : FileSystem) (path : Path) : Except SystemError File := do
  let path ← system.follow path
  let place ← system.tree.place path
  refuse (system.unreadable? place.location)
  system.tree.fileAt path

/-- Marks a file as changed just now. -/
def touch (system : FileSystem) (path : Path) : Except SystemError FileSystem := do
  let path ← system.follow path
  let place ← system.tree.place path
  refuse (system.unwritable? place.location)
  return { system with tree := ← system.tree.touch path }

/-- The path to write a file at, and what comes in between there. -/
def prepareWrite (system : FileSystem) (path : Path) :
    Except SystemError (Path × Option Interruption) := do
  let path ← system.follow path
  let place ← system.tree.place path
  refuse (system.unwritable? place.location)
  return (path, system.interrupted? place.location)

/-- Writes a file, in place of the one that is there.  If something comes in between, the file is
there with the bytes that were written by then. -/
@[irreducible]
def writeFile (system : FileSystem) (path : Path) (bytes : Bytes) :
    FileSystem × Except SystemError Unit :=
  match system.prepareWrite path with
  | .error reason => (system, .error reason)
  | .ok (path, none) =>
    match system.tree.writeFile path bytes with
    | .ok written => ({ system with tree := written }, .ok ())
    | .error reason => (system, .error reason)
  | .ok (path, some stop) =>
    match system.tree.writeFile path (bytes.take stop.written) with
    | .ok written => ({ system with tree := written }, .error stop.reason)
    | .error reason => (system, .error reason)

/-- Removes a file, or the link that is in its place. -/
@[irreducible]
def removeFile (system : FileSystem) (path : Path) : Except SystemError FileSystem := do
  let place ← system.tree.place path
  refuse (system.fixed? place.location)
  match system.link? place.location with
  | some _ =>
    return { system with
      tree := system.tree.erase place.location
      link? := system.linksWithout place.location }
  | none => return { system with tree := ← system.tree.removeFile path }

/-- The file system without a file that nobody needs any more, if it can be removed. -/
@[irreducible]
def discard (system : FileSystem) (path : Path) : FileSystem :=
  (system.removeFile path).toOption.getD system

/-- Moves a file, or the link that is in its place, to another place, where it replaces the file or
link that is there. -/
@[irreducible]
def renameFile (system : FileSystem) (path target : Path) : Except SystemError FileSystem := do
  let place ← system.tree.place path
  refuse (system.fixed? place.location)
  match system.link? place.location with
  | some destination =>
    let goal ← system.tree.place target
    refuse (system.fixed? goal.location)
    if (system.link? goal.location).isNone &&
        system.tree.node? goal.location == some .directory then
      throw .isDirectory
    return { system with
      tree := (system.tree.erase place.location).erase goal.location
      link? := fun location =>
        if location = goal.location then some destination
        else system.linksWithout place.location location }
  | none =>
    let renamed ← system.tree.renameFile path target
    let goal ← system.tree.place target
    refuse (system.fixed? goal.location)
    return { system with tree := renamed, link? := system.linksWithout goal.location }

end FileSystem

end SourcePreview
