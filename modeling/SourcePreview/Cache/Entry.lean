import SourcePreview.Json.Members
import SourcePreview.Json.Parser
import SourcePreview.Json.Printer
import SourcePreview.StyledText

/-!
# Cache entries

A cache entry is a header of eight bytes, four letters and a format version, followed by a styled
text as a compact JSON document.  Bytes with another version are told apart from bytes that are no
entry, and a document whose spans are not well formed is no entry either.
-/

namespace SourcePreview

namespace Json

/-- A colour as a record of its channels. -/
def ofColor (color : Color) : Json :=
  ofMembers
    [("r", ofNat color.red.toNat), ("g", ofNat color.green.toNat),
      ("b", ofNat color.blue.toNat), ("a", ofNat color.alpha.toNat)]

/-- A style as a record. -/
def ofStyle (style : Style) : Json :=
  ofMembers
    [("color", ofColor style.color), ("bold", .bool style.bold),
      ("italic", .bool style.italic)]

/-- A palette as a record. -/
def ofPalette (palette : Palette) : Json :=
  ofMembers
    (("background", ofColor palette.background) ::
      ("foreground", ofColor palette.foreground) ::
      TokenClass.all.map fun tokenClass =>
        (tokenClass.name, ofStyle (palette.style tokenClass)))

/-- A span as a record. -/
def ofSpan (span : Span) : Json :=
  ofMembers
    [("start", ofNat span.start), ("end", ofNat span.stop),
      ("style", ofText span.tokenClass.name)]

/-- The members of the record of a styled text. -/
def membersOfStyledText (styled : StyledText) : List (String × Json) :=
  [("language", ofText styled.language.id), ("text", ofText styled.text),
    ("spans", .array (styled.spans.map ofSpan)), ("palette", ofPalette styled.palette),
    ("degraded", .bool styled.degraded)]

/-- A channel of a colour. -/
def channel? (document : Json) : Option UInt8 := do
  let value ← document.nat?
  if value < 256 then return UInt8.ofNat value else none

/-- The colour of a record. -/
def color? (document : Json) : Option Color := do
  match ← fields? ["r", "g", "b", "a"] document with
  | [red, green, blue, alpha] =>
    return ⟨← required channel? red, ← required channel? green, ← required channel? blue,
      ← required channel? alpha⟩
  | _ => none

/-- The style of a record; it is upright and light unless the record says so. -/
def style? (document : Json) : Option Style := do
  match ← fields? ["color", "bold", "italic"] document with
  | [color, bold, italic] =>
    return ⟨← required color? color, ← orDefault false bool? bold,
      ← orDefault false bool? italic⟩
  | _ => none

/-- The palette of a record. -/
def palette? (document : Json) : Option Palette := do
  match ← fields? ("background" :: "foreground" :: TokenClass.all.map TokenClass.name)
      document with
  | [background, foreground, comments, strings, numbers, keywords, types, builtins, tags,
      plains] =>
    return ⟨← required color? background, ← required color? foreground,
      ← required style? comments, ← required style? strings, ← required style? numbers,
      ← required style? keywords, ← required style? types, ← required style? builtins,
      ← required style? tags, ← required style? plains⟩
  | _ => none

/-- The token class that a document names. -/
def tokenClass? (document : Json) : Option TokenClass :=
  document.name?.bind TokenClass.ofName?

/-- The language that a document names. -/
def language? (document : Json) : Option Language :=
  document.name?.bind Language.ofId?

/-- The span of a record. -/
def span? (document : Json) : Option Span := do
  match ← fields? ["start", "end", "style"] document with
  | [start, stop, tokenClass] =>
    return ⟨← required nat? start, ← required nat? stop, ← required tokenClass? tokenClass⟩
  | _ => none

/-- The spans of an array. -/
def spans? (document : Json) : Option (List Span) := do
  (← document.items?).mapM span?

/-- The styled text of a record; it is not degraded unless the record says so. -/
def styledText? (document : Json) : Option StyledText := do
  match ← fields? ["language", "text", "spans", "palette", "degraded"] document with
  | [language, text, spans, palette, degraded] =>
    return ⟨← required language? language, ← required text? text, ← required spans? spans,
      ← required palette? palette, ← orDefault false bool? degraded⟩
  | _ => none

end Json

namespace Entry

/-- Why bytes are not an entry that can be used. -/
inductive DecodeError where
  /-- The bytes are no entry. -/
  | corrupt
  /-- The bytes are an entry of another format version. -/
  | otherVersion (version : Nat)
deriving DecidableEq, Repr

/-- The letters that every entry begins with. -/
def magic : Bytes := Json.ascii "GLHL"

/-- The format version of the entries that are written. -/
def formatVersion : Nat := 1

/-- Four bytes of a version, low bytes first. -/
def versionBytes (version : Nat) : Bytes :=
  (List.range 4).map fun index => UInt8.ofNat (version >>> (8 * index))

/-- The version that four bytes stand for, low bytes first. -/
def versionOf (bytes : Bytes) : Nat :=
  bytes.foldr (fun byte value => byte.toNat + 256 * value) 0

/-- The bytes before the document. -/
def header : Bytes := magic ++ versionBytes formatVersion

/-- The bytes of an entry. -/
def encode (styled : StyledText) : Bytes :=
  header ++ (Json.ofMembers (Json.membersOfStyledText styled)).compact

/-- The styled text of an entry. -/
def decode (bytes : Bytes) : Except DecodeError StyledText :=
  if bytes.length < header.length ∨ bytes.take magic.length ≠ magic then .error .corrupt
  else
    let version := versionOf ((bytes.drop magic.length).take 4)
    if version ≠ formatVersion then .error (.otherVersion version)
    else
      match (Json.parse? (bytes.drop header.length)).bind Json.styledText? with
      | some styled => if styled.isWellFormed then .ok styled else .error .corrupt
      | none => .error .corrupt

end Entry

end SourcePreview
