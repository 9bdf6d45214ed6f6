import SourcePreview.CommandLine.Arguments
import SourcePreview.Language.Names
import SourcePreview.Settings

/-!
# What a command line asks for

The arguments of a command line go before the settings of the user.  Together they say what is to
be done.
-/

namespace SourcePreview

/-- What is to be done; `α` is what files are told by. -/
inductive Mode (α : Type) where
  | preview (files : List α)
  | clearCache
  | listLanguages
  | listThemes
  /-- Only to show the counters. -/
  | stats
deriving DecidableEq, Repr

/-- The same with files told otherwise. -/
def Mode.map {α β : Type} (tell : α → β) : Mode α → Mode β
  | .preview files => .preview (files.map tell)
  | .clearCache => .clearCache
  | .listLanguages => .listLanguages
  | .listThemes => .listThemes
  | .stats => .stats

/-- What is to be done, and how. -/
structure Plan where
  task : Mode Path
  settings : Settings
  /-- The language of all files, if it is given. -/
  language : Option Language
  /-- Whether previews are printed as reports. -/
  json : Bool
  /-- Whether the counters are shown at the end. -/
  printStats : Bool
deriving DecidableEq, Repr

/-- Why there is nothing to be done. -/
inductive PlanError where
  | unknownLanguage (name : String)
  | noFiles
deriving DecidableEq, Repr

/-- The text of an error. -/
def PlanError.message : PlanError → String
  | .unknownLanguage name => "Unknown language: " ++ name ++ " (see --list-languages)"
  | .noFiles => "No files given (try --help)"

namespace Plan

/-- The language that arguments name, if they name one. -/
def languageOf (arguments : Arguments) : Except PlanError (Option Language) :=
  match arguments.language with
  | none => .ok none
  | some name =>
    match Language.ofName? name with
    | some language => .ok (some language)
    | none => .error (.unknownLanguage name)

/-- The settings with what the arguments say about them. -/
def settingsOf (arguments : Arguments) (settings : Settings) : Settings :=
  { settings with
    theme := arguments.theme.getD settings.theme
    deadlineMs := arguments.deadlineMs.getD settings.deadlineMs
    maxLines := arguments.maxLines.getD settings.maxLines
    disk :=
      { settings.disk with
        enabled := settings.disk.enabled && !arguments.has .noCache } }

/-- What the arguments ask for. -/
def taskOf (arguments : Arguments) : Except PlanError (Mode Path) :=
  if arguments.has .listLanguages then .ok .listLanguages
  else if arguments.has .listThemes then .ok .listThemes
  else if arguments.has .clearCache then .ok .clearCache
  else if !arguments.paths.isEmpty then .ok (.preview arguments.paths)
  else if arguments.has .stats then .ok .stats
  else .error .noFiles

/-- What arguments ask for on top of settings. -/
def make (arguments : Arguments) (settings : Settings) : Except PlanError Plan := do
  let language ← languageOf arguments
  let task ← taskOf arguments
  return {
    task, language, settings := settingsOf arguments settings
    json := arguments.has .json, printStats := arguments.has .stats }

/-- What is to be done, for showing. -/
def mode (plan : Plan) : Mode String :=
  plan.task.map Path.display

end Plan

end SourcePreview
