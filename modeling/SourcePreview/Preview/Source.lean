import SourcePreview.FileTree.Operations
import SourcePreview.Text.Megabytes

/-!
# Reading a file for its preview

A file that is missing, a directory, too large or likely not to be a text is refused before it is
read.  Every other file is read as text, whatever its bytes.
-/

namespace SourcePreview

/-- The text of a file and the time of its latest change. -/
structure Source where
  text : String
  modified : Timestamp
deriving DecidableEq, Repr

/-- Why a file cannot be previewed. -/
inductive ReadError where
  | notFound
  | permissionDenied
  | isDirectory
  /-- The file has a byte zero near its beginning. -/
  | binaryFile
  /-- The file has so many bytes. -/
  | tooLarge (size : Nat)
  /-- Something else went wrong. -/
  | system (text : String)
deriving DecidableEq, Repr

namespace ReadError

/-- The reason that a system error gives. -/
def ofSystem (failure : SystemError) : ReadError :=
  match failure.kind with
  | .notFound => .notFound
  | .permissionDenied => .permissionDenied
  | _ => .system failure.message

/-- The reason on its own. -/
def message : ReadError → String
  | .notFound => "file not found"
  | .permissionDenied => "permission denied"
  | .isDirectory => "is a directory"
  | .binaryFile => "binary file"
  | .tooLarge size => "file too large (" ++ Text.megabytes size ++ " MB)"
  | .system text => text

/-- The reason with the name of the file, for people. -/
def messageFor (name : String) : ReadError → String
  | .notFound => "File not found: " ++ name
  | .permissionDenied => "Permission denied: " ++ name
  | .isDirectory => "Cannot preview directory: " ++ name
  | .binaryFile => "Cannot preview binary file: " ++ name
  | .tooLarge size => name ++ " is too large (" ++ Text.megabytes size ++ " MB, max 50 MB)"
  | .system text => "Error reading " ++ name ++ ": " ++ text

end ReadError

namespace Source

/-- How many bytes a file may have. -/
def maxSize : Nat := 50 * 1024 * 1024

/-- How many bytes at the beginning of a file are looked at for a byte zero. -/
def sampleSize : Nat := 8192

/-- Refuses a file that is missing, a directory or too large. -/
def check (tree : FileTree) (path : Path) : Except ReadError Unit :=
  match tree.nodeAt path with
  | .error failure => .error (.ofSystem failure)
  | .ok .directory => .error .isDirectory
  | .ok (.file file) => if maxSize < file.size then .error (.tooLarge file.size) else .ok ()

/-- Whether a file has a byte zero near its beginning; one that cannot be read has none. -/
def isBinary (tree : FileTree) (path : Path) : Bool :=
  match tree.fileAt path with
  | .ok file => (file.beginning sampleSize).contains 0
  | .error _ => false

/-- The text of a file and the time of its latest change, unless the file is refused. -/
def read (tree : FileTree) (path : Path) : Except ReadError Source := do
  check tree path
  if isBinary tree path then throw .binaryFile
  match tree.fileAt path with
  | .ok file => return ⟨String.ofList (Text.decodeLossy file.bytes), file.modified⟩
  | .error failure => throw (.ofSystem failure)

end Source

end SourcePreview
