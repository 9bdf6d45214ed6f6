import SourcePreview.Text.Utf8

/-!
# Paths

A path is a sequence of bytes, cut into names by slashes.  Repeated slashes count as one, and a
name that is a single dot counts only at the beginning of a relative path.
-/

namespace SourcePreview

/-- A path of a file or directory. -/
structure Path where
  /-- The bytes of the path. -/
  bytes : Bytes
deriving DecidableEq, Repr, Inhabited

namespace Path

/-- The byte between names. -/
def slash : UInt8 := 0x2F

/-- The byte before an extension. -/
def dot : UInt8 := 0x2E

/-- The path that a text spells. -/
def ofString (text : String) : Path :=
  ⟨Text.encode text.toList⟩

/-- The path as text, each malformed stretch replaced by a replacement character. -/
def display (path : Path) : String :=
  String.ofList (Text.decodeLossy path.bytes)

/-- Whether the path starts at the root. -/
def isAbsolute (path : Path) : Bool :=
  path.bytes.head? == some slash

/-- The pieces between slashes; `current` is the piece being read, last byte first. -/
def piecesFrom (current : Bytes) : Bytes → List Bytes
  | [] => [current.reverse]
  | byte :: rest =>
    if byte = slash then current.reverse :: piecesFrom [] rest
    else piecesFrom (byte :: current) rest

/-- A step of a path. -/
inductive Component where
  /-- To the root. -/
  | root
  /-- Nowhere. -/
  | current
  /-- To the parent directory. -/
  | parent
  /-- To an entry of the directory. -/
  | entry (name : Bytes)
deriving DecidableEq, Repr

/-- The step that a piece stands for, if it stands for one. -/
def Component.ofPiece? (piece : Bytes) : Option Component :=
  if piece = [] ∨ piece = [dot] then none
  else if piece = [dot, dot] then some .parent
  else some (.entry piece)

/-- The steps of a path. -/
def components (path : Path) : List Component :=
  let pieces := piecesFrom [] path.bytes
  let steps := pieces.filterMap Component.ofPiece?
  if path.isAbsolute then .root :: steps
  else if pieces.head? = some [dot] then .current :: steps
  else steps

/-- The name of the entry that the path ends in, if it ends in one. -/
def fileName? (path : Path) : Option Bytes :=
  match path.components.getLast? with
  | some (.entry name) => some name
  | _ => none

/-- The name of the entry for showing, or nothing if the path ends in none. -/
def displayName (path : Path) : String :=
  match path.fileName? with
  | some name => String.ofList (Text.decodeLossy name)
  | none => ""

/-- A name cut at its last dot, unless that dot is missing or comes first. -/
def splitName (name : Bytes) : Bytes × Option Bytes :=
  let extension := (name.reverse.takeWhile (· ≠ dot)).reverse
  let stem := name.take (name.length - extension.length - 1)
  if extension.length = name.length ∨ stem = [] then (name, none)
  else (stem, some extension)

/-- What comes after the last dot of the name, unless that dot comes first. -/
def extension? (path : Path) : Option Bytes :=
  path.fileName?.bind fun name => (splitName name).2

/-- A path below another one; an absolute path stands for itself. -/
def join (base path : Path) : Path :=
  if path.isAbsolute then path
  else if base.bytes = [] ∨ base.bytes.getLast? = some slash then ⟨base.bytes ++ path.bytes⟩
  else ⟨base.bytes ++ slash :: path.bytes⟩

/-- A name below a directory. -/
def child (base : Path) (name : String) : Path :=
  base.join (ofString name)

/-- A path that ends in one step more. -/
def push (base : Path) : Component → Path
  | .root => ⟨[slash]⟩
  | .current => base.join ⟨[dot]⟩
  | .parent => base.join ⟨[dot, dot]⟩
  | .entry name => base.join ⟨name⟩

/-- The path of some steps. -/
def ofComponents (steps : List Component) : Path :=
  steps.foldl push ⟨[]⟩

/-- The paths that a path goes through on its way, the longest first.  The last one is the root or
the empty path. -/
def ancestors (path : Path) : List Path :=
  let steps := path.components
  let least := if path.isAbsolute then 1 else 0
  ((List.range steps.length).reverse.filter fun count => least ≤ count).map fun count =>
    ofComponents (steps.take count)

/-- The path of the directory that a path ends in, unless it ends at the root or nowhere. -/
def parent? (path : Path) : Option Path :=
  path.ancestors.head?

/-- The path as seen from the root, for a process in `directory`.  Steps nowhere are dropped,
steps to the parent are kept, and so is a slash at the end. -/
def absolute (directory path : Path) : Path :=
  let steps := path.components.filter (· ≠ .current)
  let base : Path :=
    if path.isAbsolute then
      if path.bytes.take 2 = [slash, slash] ∧ path.bytes.take 3 ≠ [slash, slash, slash] then
        ⟨[slash, slash]⟩
      else ⟨[slash]⟩
    else directory
  let full := (steps.filter (· ≠ .root)).foldl push base
  if path.bytes.getLast? = some slash then full.join ⟨[]⟩ else full

end Path

end SourcePreview
