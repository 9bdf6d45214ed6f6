import SourcePreview.Path
import SourcePreview.Timestamp

/-!
# File trees

A file tree maps locations to directories and files.  A location is the list of names on the way
from the root, which is always a directory.  The tree carries a clock that moves on with every
change of a file, so that later changes have later modification times.
-/

namespace SourcePreview

/-- The names on the way from the root to a directory or file. -/
abbrev Location := List Bytes

/-- A file. -/
structure File where
  /-- The bytes at the beginning of the file. -/
  written : Bytes
  /-- How many bytes zero follow them. -/
  zeros : Nat
  /-- When the file was last changed. -/
  modified : Timestamp
deriving DecidableEq, Repr

namespace File

/-- The number of bytes of a file. -/
def size (file : File) : Nat :=
  file.written.length + file.zeros

/-- The bytes of a file. -/
def bytes (file : File) : Bytes :=
  file.written ++ List.replicate file.zeros 0

/-- The bytes of a file up to a number of them. -/
def beginning (file : File) (count : Nat) : Bytes :=
  file.written.take count ++
    List.replicate (min file.zeros (count - file.written.length)) 0

end File

/-- What is at a location. -/
inductive Node where
  | directory
  | file (file : File)
deriving DecidableEq, Repr

/-- Directories and files as a process sees them. -/
structure FileTree where
  /-- What is below the root. -/
  nodes : List (Location × Node)
  /-- Where relative paths start. -/
  working : Location
  /-- The number of the process.  It may have been that of another one before. -/
  process : Nat
  /-- How many temporary files the process has named so far. -/
  named : Nat
  /-- The time of the latest change. -/
  clock : Timestamp
deriving Repr

namespace FileTree

/-- A tree with nothing but its root. -/
def empty (clock : Timestamp) : FileTree :=
  ⟨[], [], 1, 0, clock⟩

/-- What is at a location, if there is something. -/
def node? (tree : FileTree) (location : Location) : Option Node :=
  if location = [] then some .directory
  else (tree.nodes.find? fun entry => entry.1 == location).map (·.2)

/-- The tree with something put at a location. -/
def put (tree : FileTree) (location : Location) (node : Node) : FileTree :=
  { tree with
    nodes := (location, node) :: tree.nodes.filter fun entry => entry.1 != location }

/-- The tree with nothing at a location. -/
def erase (tree : FileTree) (location : Location) : FileTree :=
  { tree with nodes := tree.nodes.filter fun entry => entry.1 != location }

/-- The tree with nothing at a location and below it. -/
def eraseBelow (tree : FileTree) (location : Location) : FileTree :=
  { tree with nodes := tree.nodes.filter fun entry => !location.isPrefixOf entry.1 }

/-- The names in the directory at a location. -/
def childNames (tree : FileTree) (location : Location) : List Bytes :=
  tree.nodes.filterMap fun entry =>
    if entry.1.dropLast = location then entry.1.getLast? else none

/-- The tree a moment later. -/
def tick (tree : FileTree) : FileTree :=
  { tree with clock := ⟨tree.clock.nanoseconds + 1⟩ }

/-- The tree once one more temporary file is named. -/
def countName (tree : FileTree) : FileTree :=
  { tree with named := tree.named + 1 }

/-- The tree as the next process with the same number sees it at first. -/
def begun (tree : FileTree) : FileTree :=
  { tree with named := 0 }

/-- The tree with some bytes just written at a location. -/
def putBytes (tree : FileTree) (location : Location) (bytes : Bytes) : FileTree :=
  let later := tree.tick
  later.put location (.file ⟨bytes, 0, later.clock⟩)

end FileTree

end SourcePreview
