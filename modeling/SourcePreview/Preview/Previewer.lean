import SourcePreview.Cache.Tiers
import SourcePreview.Language.Detect
import SourcePreview.Preview.Highlighter
import SourcePreview.Preview.Outcome
import SourcePreview.Preview.Source
import SourcePreview.Settings
import SourcePreview.Theme.Library

/-!
# Previewing

A request is answered from the cache if it can be.  Otherwise its text is highlighted, unless its
language has no rules or it has too many lines, and only a highlighted text is put into the cache.
Every request ends in a styled text, in the worst case one without spans.
-/

namespace SourcePreview

/-- What is to be previewed, and how. -/
structure Request where
  path : Path
  text : String
  /-- When the text was last changed. -/
  modified : Timestamp
  themeId : String
  /-- The language, if it is not to be found out. -/
  language : Option Language
  deadline : Deadline
  maxLines : Nat
deriving DecidableEq, Repr

/-- What has been counted since the beginning. -/
structure Counters where
  requests : Nat
  cacheHits : Nat
  /-- How often the highlighter was called. -/
  highlights : Nat
  degraded : Nat
deriving DecidableEq, Repr

/-- The counters at the beginning. -/
def Counters.zero : Counters := ⟨0, 0, 0, 0⟩

/-- The state of a process that makes previews. -/
structure Previewer where
  environment : Environment
  highlighter : Highlighter
  cache : Cache
  /-- The palettes of the themes that were loaded. -/
  palettes : List (String × Palette)
  counters : Counters

namespace Request

/-- The language of a request: the given one, or else that of the file. -/
def actualLanguage (request : Request) : Language :=
  request.language.getD (Language.classify request.path (some request.text))

/-- The key of a request. -/
def key (request : Request) : Key :=
  Key.derive request.path request.modified request.themeId request.actualLanguage

/-- The number of lines of the text. -/
def lineCount (request : Request) : Nat :=
  Text.countLines request.text.toList

end Request

namespace Previewer

/-- Starts a process that keeps so many previews in memory. -/
def start (environment : Environment) (highlighter : Highlighter) (tree : FileTree)
    (memoryEntries : Nat) (disk : Option DiskConfig) : Previewer × FileTree :=
  let (tree, cache) := Cache.openAt tree memoryEntries disk
  (⟨environment, highlighter, cache, [], .zero⟩, tree)

/-- The disk tier that settings describe, unless they switch it off or nothing says where it
is. -/
def diskConfig? (environment : Environment) (settings : Settings) : Option DiskConfig :=
  if settings.disk.enabled then
    (settings.cacheDirectory? environment).map fun directory =>
      ⟨directory, settings.disk.maxEntries, settings.disk.maxBytes, settings.disk.cleanupEvery⟩
  else none

/-- Starts a process as settings describe it. -/
def startWith (environment : Environment) (tree : FileTree) (settings : Settings) :
    Previewer × FileTree :=
  start environment .patterns tree settings.memoryEntries (diskConfig? environment settings)

/-- The palette of a theme, and the process after it was asked for.  A theme that can be loaded
is loaded only once, and another one stands in for a theme that cannot. -/
def palette (previewer : Previewer) (tree : FileTree) (id : String) : Previewer × Palette :=
  match previewer.palettes.lookup id with
  | some palette => (previewer, palette)
  | none =>
    match Theme.load previewer.environment tree id with
    | .ok theme =>
      ({ previewer with palettes := (id, theme.palette) :: previewer.palettes }, theme.palette)
    | .error _ => (previewer, Theme.fallback.palette)

/-- The process with its counters changed. -/
def count (previewer : Previewer) (change : Counters → Counters) : Previewer :=
  { previewer with counters := change previewer.counters }

/-- Ends a request without highlighting. -/
def degrade (previewer : Previewer) (request : Request) (palette : Palette)
    (reason : DegradeReason) : Previewer × Outcome :=
  (previewer.count fun counters => { counters with degraded := counters.degraded + 1 },
    ⟨.withoutSpans request.actualLanguage request.text palette, .degraded reason⟩)

/-- Highlights the text of a request and keeps the result in memory. -/
def highlight (previewer : Previewer) (request : Request) (palette : Palette) :
    Previewer × Outcome :=
  let counted :=
    previewer.count fun counters => { counters with highlights := counters.highlights + 1 }
  let language := request.actualLanguage
  match (counted.highlighter.run language request.text request.deadline).spans? with
  | none => counted.degrade request palette .deadlineExceeded
  | some spans =>
    let styled := StyledText.highlighted language request.text spans palette
    ({ counted with cache := counted.cache.remember request.key styled },
      ⟨styled, .highlighted⟩)

/-- Answers a request that is not in the cache. -/
def compute (previewer : Previewer) (tree : FileTree) (request : Request) :
    Previewer × Outcome :=
  let (previewer, palette) := previewer.palette tree request.themeId
  let language := request.actualLanguage
  if !previewer.highlighter.supports language then
    (previewer, ⟨.highlighted language request.text [] palette, .unsupported⟩)
  else if request.maxLines < request.lineCount then
    previewer.degrade request palette (.tooManyLines request.lineCount request.maxLines)
  else previewer.highlight request palette

/-- Answers a request, with nothing new written to disk yet. -/
def answer (previewer : Previewer) (tree : FileTree) (request : Request) :
    Previewer × FileTree × Outcome :=
  let counted :=
    previewer.count fun counters => { counters with requests := counters.requests + 1 }
  match counted.cache.lookup tree request.key with
  | (cache, tree, some (styled, tier)) =>
    let hit := { counted with cache }
    (hit.count fun counters => { counters with cacheHits := counters.cacheHits + 1 }, tree,
      ⟨styled, .cacheHit tier⟩)
  | (cache, tree, none) =>
    let (previewer, outcome) := { counted with cache }.compute tree request
    (previewer, tree, outcome)

/-- Writes the result of a request to disk if it was highlighted for the request. -/
def persist (previewer : Previewer) (tree : FileTree) (request : Request) (outcome : Outcome) :
    Previewer × FileTree :=
  match outcome.status with
  | .highlighted =>
    let (cache, tree) := previewer.cache.write tree request.key outcome.styled
    ({ previewer with cache }, tree)
  | _ => (previewer, tree)

/-- Answers a request, and writes to disk what has to be kept. -/
def preview (previewer : Previewer) (tree : FileTree) (request : Request) :
    Previewer × FileTree × Outcome :=
  let (previewer, tree, outcome) := previewer.answer tree request
  let (previewer, tree) := previewer.persist tree request outcome
  (previewer, tree, outcome)

/-- Reads a file and answers a request for its preview. -/
def previewFile (previewer : Previewer) (tree : FileTree) (path : Path) (themeId : String)
    (deadline : Deadline) (maxLines : Nat) :
    Previewer × FileTree × Except ReadError Outcome :=
  match Source.read tree path with
  | .error failure => (previewer, tree, .error failure)
  | .ok source =>
    let request : Request :=
      ⟨path, source.text, source.modified, themeId, none, deadline, maxLines⟩
    let (previewer, tree, outcome) := previewer.preview tree request
    (previewer, tree, .ok outcome)

end Previewer

end SourcePreview
