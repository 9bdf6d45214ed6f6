import SourcePreview.Json.Basic

/-!
# Printing JSON documents

A document is printed without any space, or with one member or item on a line and two spaces of
indentation for each level.  Empty arrays and objects have nothing between their brackets.
-/

namespace SourcePreview.Json

/-- A string between its quotes. -/
def inQuotes (written : Bytes) : Bytes :=
  0x22 :: written ++ [0x22]

/-- The spelling of a truth value. -/
def boolSpelling (value : Bool) : Bytes :=
  ascii (if value then "true" else "false")

mutual

/-- A document without any space. -/
def compact : Json → Bytes
  | .null => ascii "null"
  | .bool value => boolSpelling value
  | .number spelling => spelling
  | .string written => inQuotes written
  | .array items => 0x5B :: compactItems items
  | .object members => 0x7B :: compactMembers members

/-- The items of an array without any space, up to the closing bracket. -/
def compactItems : List Json → Bytes
  | [] => [0x5D]
  | [last] => compact last ++ [0x5D]
  | item :: next :: items => compact item ++ 0x2C :: compactItems (next :: items)

/-- The members of an object without any space, up to the closing brace. -/
def compactMembers : List (Bytes × Json) → Bytes
  | [] => [0x7D]
  | [(key, value)] => inQuotes key ++ 0x3A :: compact value ++ [0x7D]
  | (key, value) :: next :: members =>
    inQuotes key ++ 0x3A :: compact value ++ 0x2C :: compactMembers (next :: members)

end

/-- A line feed and the indentation of a level. -/
def newLine (level : Nat) : Bytes :=
  0x0A :: List.replicate (2 * level) 0x20

mutual

/-- A document with its parts on lines of their own, at a level of indentation. -/
def pretty (level : Nat) : Json → Bytes
  | .null => ascii "null"
  | .bool value => boolSpelling value
  | .number spelling => spelling
  | .string written => inQuotes written
  | .array [] => ascii "[]"
  | .array (item :: items) => 0x5B :: prettyItems level (item :: items)
  | .object [] => [0x7B, 0x7D]
  | .object (member :: members) => 0x7B :: prettyMembers level (member :: members)

/-- The items of an array on lines of their own, up to the closing bracket. -/
def prettyItems (level : Nat) : List Json → Bytes
  | [] => newLine level ++ [0x5D]
  | [last] => newLine (level + 1) ++ pretty (level + 1) last ++ newLine level ++ [0x5D]
  | item :: next :: items =>
    newLine (level + 1) ++ pretty (level + 1) item ++
      0x2C :: prettyItems level (next :: items)

/-- The members of an object on lines of their own, up to the closing brace. -/
def prettyMembers (level : Nat) : List (Bytes × Json) → Bytes
  | [] => newLine level ++ [0x7D]
  | [(key, value)] =>
    newLine (level + 1) ++ inQuotes key ++ 0x3A :: 0x20 :: pretty (level + 1) value ++
      newLine level ++ [0x7D]
  | (key, value) :: next :: members =>
    newLine (level + 1) ++ inQuotes key ++ 0x3A :: 0x20 :: pretty (level + 1) value ++
      0x2C :: prettyMembers level (next :: members)

end

end SourcePreview.Json
