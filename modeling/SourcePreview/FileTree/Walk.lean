import SourcePreview.FileTree.Basic
import SourcePreview.SystemError

/-!
# Walking along paths

A path is walked name by name.  Every name but the last must be that of a directory, and the walk
ends at a directory that exists already, or at a name in such a directory, whether or not there is
something of that name.
-/

namespace SourcePreview

/-- Where a walk along a path ends. -/
inductive Place where
  /-- At a directory that was reached by the root or by dots. -/
  | directory (location : Location)
  /-- At a name in a directory; `slashed` says whether the path goes on with a slash. -/
  | entry (parent : Location) (name : Bytes) (slashed : Bool)
deriving DecidableEq, Repr

/-- The location of a place. -/
def Place.location : Place → Location
  | .directory location => location
  | .entry parent name _ => parent ++ [name]

namespace FileTree

/-- How many bytes a name may have. -/
def longestName : Nat := 255

/-- How many bytes a path may have. -/
def longestPath : Nat := 4095

/-- Goes from a directory into the one that a piece of a path stands for. -/
def enter (tree : FileTree) (location : Location) (piece : Bytes) :
    Except SystemError Location :=
  match Path.Component.ofPiece? piece with
  | some .parent => .ok location.dropLast
  | some (.entry name) =>
    if longestName < name.length then .error .nameTooLong
    else
      match tree.node? (location ++ [name]) with
      | some .directory => .ok (location ++ [name])
      | some (.file _) => .error .notDirectory
      | none => .error .notFound
  | _ => .ok location

/-- The place that the last piece of a path stands for in a directory. -/
def lastPlace (location : Location) (slashed : Bool) (piece : Bytes) :
    Except SystemError Place :=
  match Path.Component.ofPiece? piece with
  | some .parent => .ok (.directory location.dropLast)
  | some (.entry name) =>
    if longestName < name.length then .error .nameTooLong
    else .ok (.entry location name slashed)
  | _ => .ok (.directory location)

/-- The place that pieces of a path lead to from a directory. -/
def walk (tree : FileTree) (start : Location) (pieces : List Bytes) :
    Except SystemError Place :=
  match pieces.reverse.dropWhile List.isEmpty with
  | [] => .ok (.directory start)
  | last :: before => do
    let location ← before.reverse.foldlM tree.enter start
    lastPlace location (pieces.getLast? == some []) last

/-- The place at the end of a path. -/
def place (tree : FileTree) (path : Path) : Except SystemError Place :=
  if path.bytes.contains 0 then .error .zeroInPath
  else if path.bytes.isEmpty then .error .notFound
  else if longestPath < path.bytes.length then .error .nameTooLong
  else
    tree.walk (if path.isAbsolute then [] else tree.working)
      (Path.piecesFrom [] path.bytes)

/-- What is at the end of a path. -/
def nodeAt (tree : FileTree) (path : Path) : Except SystemError Node := do
  let place ← tree.place path
  match tree.node? place.location, place with
  | some (.file _), .entry _ _ true => throw .notDirectory
  | some node, _ => return node
  | none, _ => throw .notFound

/-- Whether there is something at the end of a path. -/
def isPresent (tree : FileTree) (path : Path) : Bool :=
  (tree.nodeAt path).toBool

/-- Whether there is a directory at the end of a path. -/
def isDirectory (tree : FileTree) (path : Path) : Bool :=
  match tree.nodeAt path with
  | .ok .directory => true
  | _ => false

end FileTree

end SourcePreview
