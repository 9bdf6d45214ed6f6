import SourcePreview.Yaml.Property
import SourcePreview.Yaml.Scalar.Block
import SourcePreview.Yaml.Scalar.Plain
import SourcePreview.Yaml.Scalar.Quoted

/-!
# Cutting a YAML document into tokens

Tokens are found one after the other.  A scalar, a collection, an anchor, an alias or a tag may
turn out to be a key only when the colon after it is found, which must be on the same line and not
too far; then the key token, and the beginning of a mapping if this is its first key, are put in
front of it.
-/

namespace SourcePreview.Yaml

/-- A place that may turn out to be the beginning of a key. -/
structure PossibleKey where
  /-- Whether it must be a key, because a block mapping goes on there. -/
  required : Bool
  /-- How many tokens come before it. -/
  tokenCount : Nat
  cursor : Cursor

/-- A document as far as it is cut into tokens. -/
structure Scanner where
  cursor : Cursor
  /-- The tokens found, last first. -/
  tokens : List Token
  /-- The columns of the open blocks, innermost first. -/
  blocks : List Nat
  /-- The possible key of each open flow collection, innermost first, and that outside of all. -/
  keys : List (Option PossibleKey)
  /-- Whether a key may begin at this place. -/
  keyAllowed : Bool

namespace Scanner

/-- The beginning of a document. -/
def ofText (text : List Char) : Scanner :=
  ⟨Cursor.ofText text, [], [], [none], true⟩

/-- Whether the place is inside a flow collection. -/
def inFlow (scanner : Scanner) : Bool :=
  1 < scanner.keys.length

/-- How far apart a key and its colon may be. -/
def longestKey : Nat := 1024

/-- Adds a token at the end. -/
def emit (scanner : Scanner) (token : Token) : Scanner :=
  { scanner with tokens := token :: scanner.tokens }

/-- Puts a token after the first so many others. -/
def emitAfter (scanner : Scanner) (count : Nat) (token : Token) : Scanner :=
  let (later, earlier) := scanner.tokens.splitAt (scanner.tokens.length - count)
  { scanner with tokens := later ++ token :: earlier }

/-- Gives up the possible key, unless it must be one. -/
def dropKey? (scanner : Scanner) : Option Scanner :=
  match scanner.keys with
  | some key :: keys => if key.required then none else some { scanner with keys := none :: keys }
  | _ => some scanner

/-- Notes that a key may begin here. -/
def noteKey? (scanner : Scanner) : Option Scanner :=
  if scanner.keyAllowed then do
    let scanner ← scanner.dropKey?
    let required := !scanner.inFlow && scanner.blocks.head? == some scanner.cursor.column
    let key : PossibleKey := ⟨required, scanner.tokens.length, scanner.cursor⟩
    return { scanner with keys := some key :: scanner.keys.tail }
  else some scanner

/-- Gives up every possible key that is on an earlier line or too far back, unless one of these
must be a key. -/
def dropStaleKeys? (scanner : Scanner) : Option Scanner := do
  let isStale := fun key : PossibleKey =>
    key.cursor.line < scanner.cursor.line ||
      key.cursor.index + longestKey < scanner.cursor.index
  if scanner.keys.any fun key => key.any fun key => isStale key && key.required then none
  return { scanner with keys := scanner.keys.map fun key => key.filter (!isStale ·) }

/-- Opens a block at a column unless it is inside of one already; its first token comes after the
first so many others. -/
def openBlock (scanner : Scanner) (column count : Nat) (token : Token) : Scanner :=
  if !scanner.inFlow && scanner.blocks.head?.all fun block => block < column then
    { scanner.emitAfter count token with blocks := column :: scanner.blocks }
  else scanner

/-- Closes blocks, which are given innermost first, while they are of a kind. -/
def closeBlocksFrom (closes : Nat → Bool) : List Nat → Scanner → Scanner
  | [], scanner => { scanner with blocks := [] }
  | block :: blocks, scanner =>
    if closes block then closeBlocksFrom closes blocks (scanner.emit .blockEnd)
    else { scanner with blocks := block :: blocks }

/-- Closes the blocks that start to the right of the place. -/
def closeDeeperBlocks (scanner : Scanner) : Scanner :=
  if scanner.inFlow then scanner
  else closeBlocksFrom (scanner.cursor.column < ·) scanner.blocks scanner

/-- Closes all blocks. -/
def closeAllBlocks (scanner : Scanner) : Scanner :=
  if scanner.inFlow then scanner else closeBlocksFrom (fun _ => true) scanner.blocks scanner

/-- Adds a token of so many characters of the same line at the end. -/
def emitSkipping (scanner : Scanner) (count : Nat) (token : Token) : Scanner :=
  { scanner.emit token with cursor := scanner.cursor.skip count }

/-- Allows a key to begin at the next place or not. -/
def allowKey (scanner : Scanner) (allowed : Bool) : Scanner :=
  { scanner with keyAllowed := allowed }

/-- Skips white space and comments up to the next token; `rounds` bounds the lines. -/
def skipGap : (rounds : Nat) → Scanner → Scanner
  | 0, scanner => scanner
  | rounds + 1, scanner =>
    let start :=
      if scanner.cursor.index = 0 ∧ scanner.cursor.isAt '\ufeff' then scanner.cursor.skip 1
      else scanner.cursor
    let tabs := scanner.inFlow || !scanner.keyAllowed
    let blanks := start.skipWhile fun character =>
      character == ' ' || (tabs && character == '\t')
    let stop := if blanks.isAt '#' then blanks.skipWhile (!isBreak ·) else blanks
    match stop.lineBreak? with
    | some (_, next) =>
      skipGap rounds
        { scanner with cursor := next, keyAllowed := scanner.keyAllowed || !scanner.inFlow }
    | none => { scanner with cursor := stop }

/-- Takes a directive. -/
def takeDirective? (scanner : Scanner) : Option Scanner := do
  let scanner ← scanner.closeAllBlocks.dropKey?
  let (token, cursor) ← Property.directive? scanner.cursor
  return { (scanner.emit token).allowKey false with cursor }

/-- Takes the mark of the beginning or end of a document. -/
def takeDocumentMark? (scanner : Scanner) (token : Token) : Option Scanner := do
  let scanner ← scanner.closeAllBlocks.dropKey?
  return (scanner.allowKey false).emitSkipping 3 token

/-- Takes an opening bracket or brace. -/
def takeFlowStart? (scanner : Scanner) (token : Token) : Option Scanner := do
  let scanner ← scanner.noteKey?
  return ({ scanner with keys := none :: scanner.keys }.allowKey true).emitSkipping 1 token

/-- Takes a closing bracket or brace. -/
def takeFlowEnd? (scanner : Scanner) (token : Token) : Option Scanner := do
  let scanner ← scanner.dropKey?
  let keys := if scanner.inFlow then scanner.keys.tail else scanner.keys
  return ({ scanner with keys }.allowKey false).emitSkipping 1 token

/-- Takes a comma. -/
def takeComma? (scanner : Scanner) : Option Scanner := do
  let scanner ← scanner.dropKey?
  return (scanner.allowKey true).emitSkipping 1 .flowEntry

/-- Opens a block at the place unless it is inside of one already, if a block may begin there. -/
def openBlockHere? (scanner : Scanner) (token : Token) : Option Scanner :=
  if scanner.inFlow then some scanner
  else if scanner.keyAllowed then
    some (scanner.openBlock scanner.cursor.column scanner.tokens.length token)
  else none

/-- Takes a hyphen before an item of a block sequence. -/
def takeHyphen? (scanner : Scanner) : Option Scanner := do
  let scanner ← scanner.openBlockHere? .blockSequenceStart
  let scanner ← scanner.dropKey?
  return (scanner.allowKey true).emitSkipping 1 .blockEntry

/-- Takes a question mark before a key. -/
def takeQuestionMark? (scanner : Scanner) : Option Scanner := do
  let scanner ← scanner.openBlockHere? .blockMappingStart
  let scanner ← scanner.dropKey?
  return (scanner.allowKey !scanner.inFlow).emitSkipping 1 .key

/-- Takes a colon before a value, after a key that began at a place noted before or without such
a key. -/
def takeColon? (scanner : Scanner) : Option Scanner :=
  match scanner.keys with
  | some key :: keys =>
    let keyed := { scanner with keys := none :: keys }.emitAfter key.tokenCount .key
    let opened := keyed.openBlock key.cursor.column key.tokenCount .blockMappingStart
    some ((opened.allowKey false).emitSkipping 1 .value)
  | _ => do
    let scanner ← scanner.openBlockHere? .blockMappingStart
    return (scanner.allowKey !scanner.inFlow).emitSkipping 1 .value

/-- Takes an anchor, an alias or a tag, which `read` reads. -/
def takeProperty? (scanner : Scanner) (read : Cursor → Option (Token × Cursor)) :
    Option Scanner := do
  let scanner ← scanner.noteKey?
  let (token, cursor) ← read scanner.cursor
  return { (scanner.emit token).allowKey false with cursor }

/-- Takes a block scalar. -/
def takeBlockScalar? (scanner : Scanner) (style : ScalarStyle) : Option Scanner := do
  let scanner ← scanner.dropKey?
  let (text, cursor) ← Block.read? (style == .folded) scanner.blocks.head? scanner.cursor
  return { (scanner.emit (.scalar style text)).allowKey true with cursor }

/-- Takes a quoted scalar. -/
def takeQuoted? (scanner : Scanner) (style : ScalarStyle) (quote : Char) : Option Scanner :=
  scanner.takeProperty? fun cursor =>
    (Quoted.read? quote cursor).map fun (text, cursor) => (.scalar style text, cursor)

/-- Takes a plain scalar; a key may begin after it if it is followed by a line break. -/
def takePlain? (scanner : Scanner) : Option Scanner := do
  let scanner ← scanner.noteKey?
  let least := scanner.blocks.head?.elim 0 (· + 1)
  let (text, broken, cursor) ← Plain.read? scanner.inFlow least scanner.cursor
  return { (scanner.emit (.scalar .plain text)).allowKey broken with cursor }

/-- Whether a plain scalar may begin with these characters. -/
def startsPlain (inFlow : Bool) : List Char → Bool
  | [] => false
  | character :: rest =>
    !(isGap character || "-?:,[]\x7b\x7d#&*!|>'\"%@`".contains character) ||
      (character == '-' && !rest.head?.any isBlank) ||
      (!inFlow && (character == '?' || character == ':') && !startsGap rest)

/-- Takes the token at the place, which is not at the end. -/
def takeToken? (scanner : Scanner) : Option Scanner :=
  let cursor := scanner.cursor
  let inFlow := scanner.inFlow
  let indicates := fun character =>
    cursor.isAt character && (inFlow || cursor.gapAt 1)
  if cursor.column == 0 && cursor.isAt '%' then scanner.takeDirective?
  else if cursor.isAtDocumentMark then
    scanner.takeDocumentMark? (if cursor.isAt '-' then .documentStart else .documentEnd)
  else if cursor.isAt '[' then scanner.takeFlowStart? .flowSequenceStart
  else if cursor.isAt '{' then scanner.takeFlowStart? .flowMappingStart
  else if cursor.isAt ']' then scanner.takeFlowEnd? .flowSequenceEnd
  else if cursor.isAt '}' then scanner.takeFlowEnd? .flowMappingEnd
  else if cursor.isAt ',' then scanner.takeComma?
  else if cursor.isAt '-' && cursor.gapAt 1 then scanner.takeHyphen?
  else if indicates '?' then scanner.takeQuestionMark?
  else if indicates ':' then scanner.takeColon?
  else if cursor.isAt '*' then
    scanner.takeProperty? fun cursor =>
      (Property.name? cursor).map fun (name, stop) => (.alias name, stop)
  else if cursor.isAt '&' then
    scanner.takeProperty? fun cursor =>
      (Property.name? cursor).map fun (name, stop) => (.anchor name, stop)
  else if cursor.isAt '!' then scanner.takeProperty? (Property.tag? inFlow)
  else if cursor.isAt '|' && !inFlow then scanner.takeBlockScalar? .literal
  else if cursor.isAt '>' && !inFlow then scanner.takeBlockScalar? .folded
  else if cursor.isAt '\'' then scanner.takeQuoted? .singleQuoted '\''
  else if cursor.isAt '"' then scanner.takeQuoted? .doubleQuoted '"'
  else if startsPlain inFlow cursor.rest then scanner.takePlain?
  else none

/-- Takes token after token up to the end; `rounds` bounds their number. -/
def takeTokens : (rounds : Nat) → Scanner → Option (List Token)
  | 0, _ => none
  | rounds + 1, scanner => do
    let skipped := skipGap (scanner.cursor.rest.length + 1) scanner
    let scanner := (← skipped.dropStaleKeys?).closeDeeperBlocks
    if scanner.cursor.rest.isEmpty then
      let scanner ← scanner.closeAllBlocks.dropKey?
      return scanner.tokens.reverse
    else takeTokens rounds (← scanner.takeToken?)

end Scanner

/-- The tokens of a document.  A byte order mark at the beginning does not count. -/
def tokens? (text : String) : Option (List Token) :=
  let characters :=
    match text.toList with
    | '\ufeff' :: rest => rest
    | other => other
  if characters.all isAllowed then
    Scanner.takeTokens (characters.length + 1) (Scanner.ofText characters)
  else none

end SourcePreview.Yaml
