import SourcePreview.CommandLine.Help
import SourcePreview.CommandLine.Plan
import SourcePreview.Preview.Previewer
import SourcePreview.Preview.Report
import SourcePreview.Terminal

/-!
# The program

A run of the program takes the words of a command line and the files as they are, and ends with an
exit code, with what is printed to the two output streams, and with the files as they are then.
A file that cannot be previewed is reported and does not keep the others from being shown.
-/

namespace SourcePreview

/-- What is printed to the two output streams. -/
structure Console where
  stdout : Bytes
  stderr : String
deriving DecidableEq, Repr

namespace Console

/-- Nothing printed. -/
def blank : Console := ⟨[], ""⟩

/-- Prints to the first stream. -/
def print (console : Console) (text : String) : Console :=
  { console with stdout := console.stdout ++ Text.encode text.toList }

/-- Prints bytes to the first stream. -/
def printBytes (console : Console) (bytes : Bytes) : Console :=
  { console with stdout := console.stdout ++ bytes }

/-- Prints a line to the second stream. -/
def complain (console : Console) (line : String) : Console :=
  { console with stderr := console.stderr ++ line ++ "\n" }

end Console

namespace Program

/-- A run of the program as far as it has come. -/
structure State where
  previewer : Previewer
  tree : FileTree
  console : Console

/-- How a run of the program ends. -/
structure Result where
  exitCode : Nat
  console : Console
  tree : FileTree

/-- A text and enough spaces for a column of so many characters. -/
def padded (width : Nat) (text : String) : String :=
  text ++ String.ofList (List.replicate (width - text.length) ' ')

/-- The lines that list the languages. -/
def languageLines : String :=
  String.join (Language.all.map fun language =>
    padded 12 language.id ++ " " ++ language.displayName ++ "\n")

/-- The name of the place where a theme comes from. -/
def sourceName : ThemeSource → String
  | .user => "user"
  | .shipped => "builtin"

/-- The lines that list the themes. -/
def themeLines (entries : List ThemeEntry) : String :=
  String.join (entries.map fun entry =>
    padded 16 entry.id ++ " " ++ padded 24 entry.name ++ " (" ++ sourceName entry.source ++
      ")\n")

/-- The path of the directory that relative paths start from. -/
def workingPath (tree : FileTree) : Path :=
  tree.working.foldl (fun path name => path.join ⟨name⟩) ⟨[Path.slash]⟩

/-- What is shown of an outcome: a report, or the text with or without colours.  The time it took
is not measured. -/
def shown (plan : Plan) (colored : Bool) (outcome : Outcome) : Bytes :=
  if plan.json then Report.bytes outcome 0
  else
    let text :=
      if colored then Terminal.ansi outcome.styled else Terminal.plain outcome.styled
    Text.encode text.toList

/-- The request for a file that is read. -/
def request (plan : Plan) (tree : FileTree) (path : Path) (source : Source) : Request where
  path := Path.absolute (workingPath tree) path
  text := source.text
  modified := source.modified
  themeId := plan.settings.theme
  language := plan.language
  deadline := .milliseconds plan.settings.deadlineMs
  maxLines := plan.settings.maxLines

/-- Shows a file or reports why it cannot be shown.  Tells whether it was shown. -/
def showFile (plan : Plan) (colored : Bool) (state : State) (path : Path) : State × Bool :=
  match Source.read state.tree path with
  | .error failure =>
    let line := "glance: " ++ failure.messageFor path.displayName
    ({ state with console := state.console.complain line }, false)
  | .ok source =>
    let (previewer, tree, outcome) :=
      state.previewer.preview state.tree (request plan state.tree path source)
    (⟨previewer, tree, state.console.printBytes (shown plan colored outcome)⟩, true)

/-- Shows files in order and counts those that cannot be shown. -/
def showFiles (plan : Plan) (colored : Bool) :
    (failures : Nat) → State → List Path → State × Nat
  | failures, state, [] => (state, failures)
  | failures, state, path :: paths =>
    let (state, isShown) := showFile plan colored state path
    showFiles plan colored (if isShown then failures else failures + 1) state paths

/-- The line about the counters. -/
def counterLine (counters : Counters) : String :=
  "requests: " ++ toString counters.requests ++ "  cache hits: " ++
    toString counters.cacheHits ++ "  highlights: " ++ toString counters.highlights ++
    "  degraded: " ++ toString counters.degraded

/-- The line about the memory tier. -/
def memoryLine (memory : MemoryTier Key StyledText) : String :=
  "memory tier: " ++ toString memory.size ++ "/" ++ toString memory.capacity ++ " entries"

/-- The line about the disk tier. -/
def diskLine (cache : Cache) (stats : Option DiskTier.Stats) : String :=
  match cache.disk, stats with
  | some disk, some stats =>
    "disk tier: " ++ toString stats.entries ++ " entries, " ++ toString stats.bytes ++
      " bytes in " ++ disk.config.directory.display
  | _, _ => "disk tier: disabled"

/-- Prints the counters and the sizes of the tiers. -/
def printStats (state : State) : State :=
  let cache := state.previewer.cache
  let (tree, stats) := cache.diskStats state.tree
  let console :=
    ((state.console.complain (counterLine state.previewer.counters)).complain
      (memoryLine cache.memory)).complain (diskLine cache stats)
  { state with tree, console }

/-- A run that ends well. -/
def succeed (tree : FileTree) (console : Console) : Result :=
  ⟨0, console, tree⟩

/-- A run that ends with an error. -/
def fail (tree : FileTree) (console : Console) (message : String) : Result :=
  ⟨1, console.complain ("Error: " ++ message), tree⟩

/-- Shows files, then the counters if they are asked for. -/
def runPreview (plan : Plan) (colored : Bool) (state : State) (paths : List Path) : Result :=
  let (state, failures) := showFiles plan colored 0 state paths
  let state := if plan.printStats then printStats state else state
  if failures = 0 then succeed state.tree state.console
  else
    fail state.tree state.console
      (toString failures ++ " of " ++ toString paths.length ++ " files could not be previewed")

/-- The message about a cache that cannot be emptied, with the causes one below the other. -/
def clearMessage (failure : CacheError) : String :=
  "Failed to clear cache\n\nCaused by:\n    0: " ++ failure.message ++ "\n    1: " ++
    failure.reason.message

/-- Empties the cache. -/
def runClear (environment : Environment) (plan : Plan) (state : State) : Result :=
  let (_, tree, result) := state.previewer.cache.clear state.tree
  match result with
  | .error failure => fail tree state.console (clearMessage failure)
  | .ok () =>
    let place :=
      match plan.settings.cacheDirectory? environment with
      | some directory => " at " ++ directory.display
      | none => ""
    succeed tree (state.console.complain ("Cleared highlight cache" ++ place))

/-- Does what is planned. -/
def runPlan (environment : Environment) (tree : FileTree) (console : Console) (colored : Bool)
    (plan : Plan) : Result :=
  let started := fun (_ : Unit) =>
    let (previewer, tree) := Previewer.startWith environment tree plan.settings
    (⟨previewer, tree, console⟩ : State)
  match plan.task with
  | .listLanguages => succeed tree (console.print languageLines)
  | .listThemes => succeed tree (console.print (themeLines (Theme.listAll environment tree)))
  | .clearCache => runClear environment plan (started ())
  | .stats =>
    let state := printStats (started ())
    succeed state.tree state.console
  | .preview paths => runPreview plan colored (started ()) paths

/-- The end of a run whose words are not carried out. -/
def refuse (tree : FileTree) (console : Console) : UsageError → Result
  | .displayHelp => succeed tree (console.print Help.text)
  | .displayVersion => succeed tree (console.print Help.version)
  | other =>
    ⟨2, console.complain ("error: " ++ other.message ++
      "\n\nFor more information, try '--help'."), tree⟩

/-- Makes the directory for logs, or warns that there is none. -/
def prepareLogs (environment : Environment) (tree : FileTree) : FileTree × Console :=
  match environment.ensureLogs tree with
  | (tree, .ok _) => (tree, .blank)
  | (tree, .error failure) =>
    (tree, Console.blank.complain
      ("Warning: Could not initialize file logging: " ++ failure.message))

/-- Runs the program in a process of its own; `colored` says whether the first stream is shown by a
terminal. -/
def run (environment : Environment) (tree : FileTree) (colored : Bool) (words : List Word) :
    Result :=
  let (tree, console) := prepareLogs environment tree.begun
  match Arguments.ofWords words with
  | .error problem => refuse tree console problem
  | .ok arguments =>
    match Plan.make arguments (Settings.load environment tree) with
    | .error problem => fail tree console problem.message
    | .ok plan => runPlan environment tree console colored plan

end Program

end SourcePreview
