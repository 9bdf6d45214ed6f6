import SourcePreview.Yaml.Scan

/-!
# The structure of YAML documents

A document is a node: a scalar, a sequence, a mapping, or an alias of a node that carries an
anchor.  Aliases are kept, so that a node may contain an alias of itself, and are followed only
where a value is asked for.
-/

namespace SourcePreview.Yaml

/-- A scalar with its tag, if it has one. -/
structure Scalar where
  style : ScalarStyle
  tag : Option Bytes
  text : String
deriving DecidableEq, Repr

/-- A part of a document. -/
inductive Node where
  | scalar (scalar : Scalar)
  | sequence (items : List Node)
  | mapping (members : List (Node × Node))
  /-- The node with the anchor of that number, counted from the beginning of the document. -/
  | alias (anchor : Nat)
deriving Repr, Inhabited

/-- A document with the nodes that carry anchors. -/
structure Document where
  root : Node
  anchored : List (Nat × Node)
deriving Repr

/-- A document as far as its structure is read. -/
structure Reading where
  /-- The tokens that are left. -/
  rest : List Token
  /-- What the handles of tags stand for. -/
  handles : List (List Char × Bytes)
  /-- The numbers of the anchors, latest first. -/
  anchors : List (List Char × Nat)
  /-- The finished nodes with their anchors. -/
  anchored : List (Nat × Node)

namespace Reading

/-- The next token. -/
def next? (reading : Reading) : Option Token :=
  reading.rest.head?

/-- The reading after the next token. -/
def skip (reading : Reading) : Reading :=
  { reading with rest := reading.rest.tail }

/-- Takes an anchor, if there is one, and gives it a number. -/
def takeAnchor (reading : Reading) : Option Nat × Reading :=
  match reading.rest with
  | .anchor name :: rest =>
    let number := reading.anchors.length
    (some number, { reading with rest, anchors := (name, number) :: reading.anchors })
  | _ => (none, reading)

/-- What a tag stands for. -/
def tag? (reading : Reading) (handle : List Char) (suffix : Bytes) : Option Bytes :=
  if handle.isEmpty then some suffix
  else (reading.handles.lookup handle).map (· ++ suffix)

/-- Takes a tag, if there is one. -/
def takeTag? (reading : Reading) : Option (Option Bytes × Reading) :=
  match reading.rest with
  | .tag handle suffix :: _ => (reading.tag? handle suffix).map fun tag => (some tag, reading.skip)
  | _ => some (none, reading)

/-- Takes an anchor and a tag, in either order, as far as they are there. -/
def takeProperties? (reading : Reading) : Option (Option Nat × Option Bytes × Reading) := do
  match reading.next? with
  | some (.anchor _) =>
    let (anchor, reading) := reading.takeAnchor
    let (tag, reading) ← reading.takeTag?
    return (anchor, tag, reading)
  | _ =>
    let (tag, reading) ← reading.takeTag?
    let (anchor, reading) := reading.takeAnchor
    return (anchor, tag, reading)

/-- Notes a finished node under its anchor, if it has one. -/
def finish (anchor : Option Nat) (node : Node) (reading : Reading) : Node × Reading :=
  match anchor with
  | some number => (node, { reading with anchored := (number, node) :: reading.anchored })
  | none => (node, reading)

end Reading

/-- The scalar that stands for a node that is left out. -/
def Node.omitted : Node :=
  .scalar ⟨.plain, none, ""⟩

/-- The tag of a scalar: an exclamation mark alone is no tag. -/
def scalarTag (tag : Option Bytes) : Option Bytes :=
  tag.filter (· ≠ [0x21])

/-- Whether the next token is one of those that a left out node stands before. -/
def Reading.isAtOneOf (tokens : List Token) (reading : Reading) : Bool :=
  reading.next?.all tokens.contains

mutual

/-- Reads a node.  Block collections may begin where `inBlock` says so, and a block sequence
without indentation of its own where `unindented` does.  In this function and those below,
`depth` bounds the number of calls inside each other. -/
def readNode (inBlock unindented : Bool) : (depth : Nat) → Reading → Option (Node × Reading)
  | 0, _ => none
  | depth + 1, reading =>
    match reading.next? with
    | some (.alias name) =>
      (reading.anchors.lookup name).map fun number => (.alias number, reading.skip)
    | _ => do
      let (anchor, tag, reading) ← reading.takeProperties?
      let finished := fun (node, reading) => Reading.finish anchor node reading
      match reading.next? with
      | some .blockEntry =>
        if unindented then (readUnindentedItems depth [] reading).map finished
        else if anchor.isSome || tag.isSome then
          return finished (.scalar ⟨.plain, tag, ""⟩, reading)
        else none
      | some (.scalar style text) =>
        return finished (.scalar ⟨style, scalarTag tag, text⟩, reading.skip)
      | some .flowSequenceStart =>
        (readFlowItems depth true [] reading.skip).map finished
      | some .flowMappingStart =>
        (readFlowMembers depth true [] reading.skip).map finished
      | some .blockSequenceStart =>
        if inBlock then (readItems depth [] reading.skip).map finished
        else if anchor.isSome || tag.isSome then
          return finished (.scalar ⟨.plain, tag, ""⟩, reading)
        else none
      | some .blockMappingStart =>
        if inBlock then (readMembers depth [] reading.skip).map finished
        else if anchor.isSome || tag.isSome then
          return finished (.scalar ⟨.plain, tag, ""⟩, reading)
        else none
      | _ =>
        if anchor.isSome || tag.isSome then
          return finished (.scalar ⟨.plain, tag, ""⟩, reading)
        else none

/-- Reads a node unless the next token is one that a left out node stands before. -/
def readOptional (inBlock unindented : Bool) (ends : List Token) :
    (depth : Nat) → Reading → Option (Node × Reading)
  | 0, _ => none
  | depth + 1, reading =>
    if reading.isAtOneOf ends then some (.omitted, reading)
    else readNode inBlock unindented depth reading

/-- Reads the items of a block sequence after those read, last first. -/
def readItems : (depth : Nat) → (read : List Node) → Reading → Option (Node × Reading)
  | 0, _, _ => none
  | depth + 1, read, reading =>
    match reading.next? with
    | some .blockEntry => do
      let (item, reading) ←
        readOptional true false [.blockEntry, .blockEnd] depth reading.skip
      readItems depth (item :: read) reading
    | some .blockEnd => some (.sequence read.reverse, reading.skip)
    | _ => none

/-- Reads the items of a block sequence that is not indented, as the value of a key. -/
def readUnindentedItems :
    (depth : Nat) → (read : List Node) → Reading → Option (Node × Reading)
  | 0, _, _ => none
  | depth + 1, read, reading =>
    match reading.next? with
    | some .blockEntry => do
      let (item, reading) ←
        readOptional true false [.blockEntry, .key, .value, .blockEnd] depth reading.skip
      readUnindentedItems depth (item :: read) reading
    | _ => some (.sequence read.reverse, reading)

/-- Reads the members of a block mapping. -/
def readMembers :
    (depth : Nat) → (read : List (Node × Node)) → Reading → Option (Node × Reading)
  | 0, _, _ => none
  | depth + 1, read, reading =>
    match reading.next? with
    | some .key => do
      let ends := [Token.key, .value, .blockEnd]
      let (key, reading) ← readOptional true true ends depth reading.skip
      match reading.next? with
      | some .value =>
        let (value, reading) ← readOptional true true ends depth reading.skip
        readMembers depth ((key, value) :: read) reading
      | _ => readMembers depth ((key, .omitted) :: read) reading
    | some .blockEnd => some (.mapping read.reverse, reading.skip)
    | _ => none

/-- Reads the value of a member of a flow collection, if there is a colon. -/
def readFlowValue (ends : List Token) : (depth : Nat) → Reading → Option (Node × Reading)
  | 0, _ => none
  | depth + 1, reading =>
    match reading.next? with
    | some .value => readOptional false false ends depth reading.skip
    | _ => some (.omitted, reading)

/-- Reads the items of a flow sequence.  A key without a node takes the token after it away. -/
def readFlowItems :
    (depth : Nat) → (first : Bool) → (read : List Node) → Reading → Option (Node × Reading)
  | 0, _, _, _ => none
  | depth + 1, first, read, reading =>
    let separated := first || reading.next? == some .flowEntry
    let reading := if !first && separated then reading.skip else reading
    match reading.next? with
    | some .flowSequenceEnd => some (.sequence read.reverse, reading.skip)
    | some .key => do
      if !separated then none
      let inner := reading.skip
      let (key, reading) ←
        if inner.isAtOneOf [.value, .flowEntry, .flowSequenceEnd] then
          some (.omitted, inner.skip)
        else readNode false false depth inner
      let (value, reading) ← readFlowValue [.flowEntry, .flowSequenceEnd] depth reading
      readFlowItems depth false (.mapping [(key, value)] :: read) reading
    | _ => do
      if !separated then none
      let (item, reading) ← readNode false false depth reading
      readFlowItems depth false (item :: read) reading

/-- Reads the members of a flow mapping. -/
def readFlowMembers :
    (depth : Nat) → (first : Bool) → (read : List (Node × Node)) → Reading →
      Option (Node × Reading)
  | 0, _, _, _ => none
  | depth + 1, first, read, reading =>
    let separated := first || reading.next? == some .flowEntry
    let reading := if !first && separated then reading.skip else reading
    match reading.next? with
    | some .flowMappingEnd => some (.mapping read.reverse, reading.skip)
    | some .key => do
      if !separated then none
      let ends := [Token.flowEntry, .flowMappingEnd]
      let (key, reading) ← readOptional false false (.value :: ends) depth reading.skip
      let (value, reading) ← readFlowValue ends depth reading
      readFlowMembers depth false ((key, value) :: read) reading
    | _ => do
      if !separated then none
      let (key, reading) ← readNode false false depth reading
      readFlowMembers depth false ((key, .omitted) :: read) reading

end

namespace Document

/-- The handles of tags that need no directive. -/
def standardHandles : List (List Char × Bytes) :=
  [(['!'], [0x21]), (['!', '!'], "tag:yaml.org,2002:".toList.flatMap String.utf8EncodeChar)]

/-- Takes the directives in front of a document: at most one version, which must be known, and at
most one meaning for each handle.  What they say is the version, if there is one, and the
handles. -/
def takeDirectives :
    (version : Bool) → List (List Char × Bytes) → List Token →
      Option (Bool × List (List Char × Bytes) × List Token)
  | version, handles, .version major minor :: rest =>
    if !version && major == 1 && (minor == 1 || minor == 2) then takeDirectives true handles rest
    else none
  | version, handles, .tagHandle handle expansion :: rest =>
    if (handles.lookup handle).isSome then none
    else takeDirectives version (handles ++ [(handle, expansion)]) rest
  | version, handles, rest => some (version, handles, rest)

/-- Whether nothing but ends of documents is left. -/
def isFinished (rest : List Token) : Bool :=
  rest.all (· == .documentEnd)

/-- Reads the node of a document and makes sure that nothing comes after it. -/
def readRoot (handles : List (List Char × Bytes)) (rest : List Token) : Option Document := do
  let (root, reading) ←
    readNode true false (4 * rest.length + 4) ⟨rest, handles ++ standardHandles, [], []⟩
  if isFinished reading.rest then return ⟨root, reading.anchored⟩ else none

/-- The document that a text consists of.  A text without any token is an empty document. -/
def parse? (text : String) : Option Document := do
  let tokens ← tokens? text
  if tokens.isEmpty then return ⟨.omitted, []⟩
  let (version, handles, rest) ← takeDirectives false [] tokens
  match rest with
  | .documentStart :: rest =>
    if rest.isEmpty || rest.head? == some .documentEnd then
      if isFinished rest then return ⟨.omitted, []⟩ else none
    else readRoot handles rest
  | rest => if version || !handles.isEmpty then none else readRoot [] rest

/-- The node that a node stands for: itself, or what it is an alias of. -/
def resolve (document : Document) : Node → Option Node
  | .alias anchor => document.anchored.lookup anchor
  | node => some node

end Document

end SourcePreview.Yaml
