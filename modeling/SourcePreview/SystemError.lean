/-!
# System errors

What can go wrong when a file or directory is used.  The texts are those of the operating system,
with its number for the error, except for the errors that arise before or after its part.
-/

namespace SourcePreview

/-- What a caller may tell apart about an error. -/
inductive ErrorKind where
  | notFound
  | permissionDenied
  | alreadyExists
  | other
deriving DecidableEq, Repr

/-- Why a file or directory cannot be used. -/
inductive SystemError where
  | notPermitted
  | notFound
  | inputOutput
  | permissionDenied
  | alreadyExists
  | notDirectory
  | isDirectory
  | noSpace
  | nameTooLong
  | notEmpty
  /-- The path has a byte zero in it. -/
  | zeroInPath
  /-- The bytes of the file are no text. -/
  | malformedText
  /-- An error that somebody else describes. -/
  | described (kind : ErrorKind) (text : String)
deriving DecidableEq, Repr

namespace SystemError

/-- What a caller may tell apart about an error. -/
def kind : SystemError → ErrorKind
  | .notPermitted => .permissionDenied
  | .permissionDenied => .permissionDenied
  | .notFound => .notFound
  | .alreadyExists => .alreadyExists
  | .described kind _ => kind
  | _ => .other

/-- The text of an error of the operating system with its number. -/
def numbered (text : String) (number : Nat) : String :=
  text ++ " (os error " ++ toString number ++ ")"

/-- The text of an error. -/
def message : SystemError → String
  | .notPermitted => numbered "Operation not permitted" 1
  | .notFound => numbered "No such file or directory" 2
  | .inputOutput => numbered "Input/output error" 5
  | .permissionDenied => numbered "Permission denied" 13
  | .alreadyExists => numbered "File exists" 17
  | .notDirectory => numbered "Not a directory" 20
  | .isDirectory => numbered "Is a directory" 21
  | .noSpace => numbered "No space left on device" 28
  | .nameTooLong => numbered "File name too long" 36
  | .notEmpty => numbered "Directory not empty" 39
  | .zeroInPath => "file name contained an unexpected NUL byte"
  | .malformedText => "stream did not contain valid UTF-8"
  | .described _ text => text

end SystemError

end SourcePreview
