import SourcePreview.Text.Utf8

/-!
# Tokens of YAML documents

The pieces that a YAML document is made of.  Blocks that are marked by indentation alone have
tokens for their beginning and end too.
-/

namespace SourcePreview.Yaml

/-- How a scalar is written. -/
inductive ScalarStyle where
  | plain
  | singleQuoted
  | doubleQuoted
  | literal
  | folded
deriving DecidableEq, Repr

/-- A piece of a document. -/
inductive Token where
  | version (major minor : Nat)
  | tagHandle (handle : List Char) (expansion : Bytes)
  | documentStart
  | documentEnd
  | blockSequenceStart
  | blockMappingStart
  | blockEnd
  | flowSequenceStart
  | flowSequenceEnd
  | flowMappingStart
  | flowMappingEnd
  | blockEntry
  | flowEntry
  | key
  | value
  | alias (name : List Char)
  | anchor (name : List Char)
  | tag (handle : List Char) (suffix : Bytes)
  | scalar (style : ScalarStyle) (text : String)
deriving DecidableEq, Repr

end SourcePreview.Yaml
