import SourcePreview.Path

/-!
# Arguments of the command line

The words of the command line are options with a value, flags, and paths.  They are taken from
left to right.  A word that belongs to an option or to the paths is only checked when the next
option or flag begins or the words end, so that an unknown option after it is noticed first.
Paths may have any bytes; the names and the values of options are texts.
-/

namespace SourcePreview

/-- A word of a command line. -/
structure Word where
  bytes : Bytes
deriving DecidableEq, Repr

namespace Word

/-- The word that a text spells. -/
def ofString (text : String) : Word :=
  ⟨Text.encode text.toList⟩

instance : Coe String Word := ⟨ofString⟩

instance : Coe (List String) (List Word) := ⟨List.map ofString⟩

end Word

/-- An option with a value. -/
inductive ValueOption where
  | theme
  | language
  | deadlineMs
  | maxLines
deriving DecidableEq, Repr

/-- An option without a value. -/
inductive Flag where
  | noCache
  | json
  | stats
  | clearCache
  | listLanguages
  | listThemes
deriving DecidableEq, Repr

/-- Why the words of a command line are not carried out. -/
inductive UsageError where
  /-- The help is asked for. -/
  | displayHelp
  /-- The version is asked for. -/
  | displayVersion
  | unknownArgument
  /-- A value is missing or is no text, or a path is empty. -/
  | invalidValue
  /-- A value is no number. -/
  | valueValidation
  /-- An option or a flag is given twice. -/
  | argumentConflict
  /-- A flag is given a value. -/
  | tooManyValues
deriving DecidableEq, Repr

/-- What is wrong, in words. -/
def UsageError.message : UsageError → String
  | .displayHelp => "the help is asked for"
  | .displayVersion => "the version is asked for"
  | .unknownArgument => "there is an unknown option"
  | .invalidValue => "a value is missing or is no text, or a path is empty"
  | .valueValidation => "a value is no number of at most sixty-four bits"
  | .argumentConflict => "an option is given twice"
  | .tooManyValues => "an option that takes no value is given one"

/-- What a command line says. -/
structure Arguments where
  paths : List Path
  theme : Option String
  language : Option String
  deadlineMs : Option Nat
  maxLines : Option Nat
  flags : List Flag
deriving DecidableEq, Repr

namespace ValueOption

/-- The option with a name of several letters. -/
def ofName? : String → Option ValueOption
  | "theme" => some .theme
  | "language" => some .language
  | "deadline-ms" => some .deadlineMs
  | "max-lines" => some .maxLines
  | _ => none

/-- The option with a name of one letter. -/
def ofLetter? : Char → Option ValueOption
  | 't' => some .theme
  | 'l' => some .language
  | _ => none

end ValueOption

/-- The flag with a name. -/
def Flag.ofName? : String → Option Flag
  | "no-cache" => some .noCache
  | "json" => some .json
  | "stats" => some .stats
  | "clear-cache" => some .clearCache
  | "list-languages" => some .listLanguages
  | "list-themes" => some .listThemes
  | _ => none

namespace Arguments

/-- What an empty command line says. -/
def none : Arguments :=
  ⟨[], Option.none, Option.none, Option.none, Option.none, []⟩

/-- Whether a flag is given. -/
def has (arguments : Arguments) (flag : Flag) : Bool :=
  arguments.flags.contains flag

/-- The number of at most sixty-four bits that a value spells, perhaps after a plus sign. -/
def number? (value : String) : Option Nat :=
  let digits :=
    match value.toList with
    | '+' :: rest => rest
    | other => other
  if digits.isEmpty || !digits.all Char.isDigit then Option.none
  else
    let number := digits.foldl (fun sum digit => sum * 10 + (digit.toNat - '0'.toNat)) 0
    if number < UInt64.size then some number else Option.none

/-- The text of an option that is not given yet. -/
def newText {α : Type} (given : Option α) (value : Bytes) : Except UsageError String :=
  if given.isSome then .error .argumentConflict
  else
    match Text.decode? value with
    | some characters => .ok (String.ofList characters)
    | Option.none => .error .invalidValue

/-- The number of an option that is not given yet. -/
def newNumber (given : Option Nat) (value : Bytes) : Except UsageError Nat := do
  match number? (← newText given value) with
  | some number => .ok number
  | Option.none => .error .valueValidation

/-- Gives a value to an option. -/
def set (arguments : Arguments) (option : ValueOption) (value : Bytes) :
    Except UsageError Arguments :=
  match option with
  | .theme => do return { arguments with theme := ← newText arguments.theme value }
  | .language => do return { arguments with language := ← newText arguments.language value }
  | .deadlineMs => do
    return { arguments with deadlineMs := ← newNumber arguments.deadlineMs value }
  | .maxLines => do return { arguments with maxLines := ← newNumber arguments.maxLines value }

/-- Gives a flag. -/
def setFlag (arguments : Arguments) (flag : Flag) : Except UsageError Arguments :=
  if arguments.has flag then .error .argumentConflict
  else .ok { arguments with flags := arguments.flags ++ [flag] }

/-- Adds paths, none of which may be empty. -/
def addPaths (arguments : Arguments) (paths : List Path) : Except UsageError Arguments :=
  if paths.contains ⟨[]⟩ then .error .invalidValue
  else .ok { arguments with paths := arguments.paths ++ paths }

end Arguments

/-- Words that are taken but not checked yet. -/
inductive PendingWords where
  | nothing
  /-- An option, with its value once that has come. -/
  | option (option : ValueOption) (value : Option Bytes)
  | paths (paths : List Path)
deriving DecidableEq, Repr

/-- A command line as far as its words are taken. -/
structure ArgumentReader where
  arguments : Arguments
  pending : PendingWords
  /-- Whether all further words are paths. -/
  onlyPaths : Bool
deriving DecidableEq, Repr

namespace ArgumentReader

/-- Checks the pending words. -/
def settle (reader : ArgumentReader) : Except UsageError ArgumentReader :=
  match reader.pending with
  | .nothing => .ok reader
  | .option _ none => .error .invalidValue
  | .option option (some value) => do
    return { reader with arguments := ← reader.arguments.set option value, pending := .nothing }
  | .paths paths => do
    return { reader with arguments := ← reader.arguments.addPaths paths, pending := .nothing }

/-- Takes a path. -/
def takePath (reader : ArgumentReader) (path : Path) : Except UsageError ArgumentReader :=
  match reader.pending with
  | .paths paths => .ok { reader with pending := .paths (paths ++ [path]) }
  | _ => do return { ← reader.settle with pending := .paths [path] }

/-- Takes an option, with its value if that is part of the same word. -/
def takeOption (reader : ArgumentReader) (option : ValueOption) (value : Option Bytes) :
    Except UsageError ArgumentReader := do
  let reader ← reader.settle
  match value with
  | none => return { reader with pending := .option option none }
  | some value => return { reader with arguments := ← reader.arguments.set option value }

/-- Takes a flag. -/
def takeFlag (reader : ArgumentReader) (flag : Flag) : Except UsageError ArgumentReader := do
  let reader ← reader.settle
  return { reader with arguments := ← reader.arguments.setFlag flag }

/-- Ends with a request for information, once the words before it are checked. -/
def takeRequest (reader : ArgumentReader) (request : UsageError) :
    Except UsageError ArgumentReader := do
  let _ ← reader.settle
  throw request

/-- The byte before the name of an option. -/
def hyphen : UInt8 := 0x2D

/-- The byte between a name and a value. -/
def equals : UInt8 := 0x3D

/-- A name and, after an equals sign, a value.  A name that is no text is the name of nothing, as
is the empty one. -/
def splitValue (word : Bytes) : String × Option Bytes :=
  let name := String.ofList ((Text.decode? (word.takeWhile (· ≠ equals))).getD [])
  match word.dropWhile (· ≠ equals) with
  | [] => (name, none)
  | _ :: value => (name, some value)

/-- Takes a word that starts with two hyphens. -/
def takeLong (reader : ArgumentReader) (word : Bytes) : Except UsageError ArgumentReader :=
  let (name, value) := splitValue word
  match ValueOption.ofName? name, Flag.ofName? name, value with
  | some option, _, _ => reader.takeOption option value
  | none, some flag, none => reader.takeFlag flag
  | none, some _, some _ => .error .tooManyValues
  | none, none, _ =>
    if name = "help" ∨ name = "version" then
      if value.isSome then .error .tooManyValues
      else
        reader.takeRequest (if name = "help" then .displayHelp else .displayVersion)
    else .error .unknownArgument

/-- Takes a word of a hyphen, a letter and perhaps a value.  All letters that mean something are
one byte long. -/
def takeShort (reader : ArgumentReader) (first : UInt8) (value : Bytes) :
    Except UsageError ArgumentReader :=
  let letter := Char.ofNat first.toNat
  match ValueOption.ofLetter? letter with
  | some option =>
    reader.takeOption option
      (match value with
        | [] => none
        | byte :: rest => some (if byte = equals then rest else value))
  | none =>
    if letter = 'h' then reader.takeRequest .displayHelp
    else if letter = 'V' then reader.takeRequest .displayVersion
    else .error .unknownArgument

/-- Takes a word that names no option. -/
def takeValue (reader : ArgumentReader) (word : Word) : Except UsageError ArgumentReader :=
  match reader.pending with
  | .option option none => .ok { reader with pending := .option option (some word.bytes) }
  | _ => reader.takePath ⟨word.bytes⟩

/-- Takes a word. -/
def takeWord (reader : ArgumentReader) (word : Word) : Except UsageError ArgumentReader :=
  if reader.onlyPaths then reader.takePath ⟨word.bytes⟩
  else
    match word.bytes with
    | first :: second :: rest =>
      if first ≠ hyphen then reader.takeValue word
      else if second ≠ hyphen then reader.takeShort second rest
      else if rest = [] then .ok { reader with onlyPaths := true }
      else reader.takeLong rest
    | _ => reader.takeValue word

end ArgumentReader

/-- What the words of a command line say. -/
def Arguments.ofWords (words : List Word) : Except UsageError Arguments := do
  let reader ← words.foldlM ArgumentReader.takeWord ⟨Arguments.none, .nothing, false⟩
  return (← reader.settle).arguments

end SourcePreview
