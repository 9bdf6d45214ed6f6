import SourcePreview.Json.Basic

/-!
# Records in JSON documents

A record is read from an object, whose members may come in any order and include unknown ones, or
from an array of its fields in order, of which the last ones may be missing.  No field may be given
twice.  A name out of a list is read from a string, or from an object with that name as its only
key and nothing as its value.
-/

namespace SourcePreview.Json

/-- The values of the named fields among members whose keys are known, or nothing if a field is
given twice. -/
def fieldsOfMembers
    (names : List String) (members : List (String × Json)) : Option (List (Option Json)) :=
  names.mapM fun name =>
    match members.filter fun member => member.1 == name with
    | [] => some none
    | [(_, value)] => some (some value)
    | _ => none

/-- The values of the fields in order, with nothing for those that are missing, or nothing if
there are more values than fields. -/
def fieldsOfItems : (names : List String) → List Json → Option (List (Option Json))
  | [], [] => some []
  | [], _ :: _ => none
  | _ :: names, [] => (fieldsOfItems names []).map (none :: ·)
  | _ :: names, item :: items => (fieldsOfItems names items).map (some item :: ·)

/-- The values of the named fields of a record, with nothing for those that are missing. -/
def fields? (names : List String) : Json → Option (List (Option Json))
  | .object members => do
    let known ← members.mapM fun (key, value) => (unescape? key).map fun name => (name, value)
    fieldsOfMembers names known
  | .array items => fieldsOfItems names items
  | _ => none

/-- A name as a string or as the only key of an object. -/
def name? : Json → Option String
  | .string written => unescape? written
  | .object [(key, .null)] => unescape? key
  | _ => none

/-- A field that must be there. -/
def required {α : Type} (read : Json → Option α) : Option Json → Option α
  | some value => read value
  | none => none

/-- A field that may be missing. -/
def orDefault {α : Type} (fallback : α) (read : Json → Option α) : Option Json → Option α
  | some value => read value
  | none => some fallback

end SourcePreview.Json
