import SourcePreview.Proofs.Processes.Transparency

/-!
# Requests that end plain leave no trace

A request ends plain if its language has no rules, if its text has too many lines, or if its
highlighter gives nothing in time.  Let all such requests be left out of a run.  Then the others are
answered as before, and in the end everything in memory, in the queues and on disk is the same, so
that whatever is asked next is answered the same as well.

The run and what remains of it are followed side by side.  Both have the same tree and the same
processes, but for what these have noted and counted, and a palette that was noted is always that of
its theme.
-/

namespace SourcePreview

open FileTree

/-- Whether a request was neither found in the cache nor highlighted. -/
def Status.isPlain : Status → Bool
  | .unsupported | .degraded _ => true
  | .cacheHit _ | .highlighted => false

/-- Whether a highlighter gives well-formed spans for the text of a request, if it gives any. -/
def Request.IsServed (request : Request) (highlighter : Highlighter) : Prop :=
  ∀ spans,
    (highlighter.run request.actualLanguage request.text request.deadline).spans? =
        some spans →
      Span.wellFormed request.text.toList.length spans = true

theorem Request.isServed_timed (request : Request) (timing : Timing) :
    request.IsServed (.timed timing) := by
  intro spans finishes
  rw [(Highlighter.findsPatterns_timed timing).spans finishes]
  exact Highlight.isWellFormed_highlighted _ _ Theme.fallback.palette

theorem Request.isServed_patterns (request : Request) : request.IsServed .patterns :=
  request.isServed_timed ⟨fun _ => request.deadline.isOver, true⟩

/-- Whether an event is no request. -/
def Event.AsksNothing : Event → Prop
  | .preview .. => False
  | _ => True

/-- The directory in which an event is to open a disk tier. -/
def Event.directory? : Event → Option Location
  | .launch working _ _ disk | .relaunch _ working _ _ disk =>
    disk.map (·.directory.locationFrom working)
  | _ => none

/-- A request to a process, with the highlighter that works on its text, or something else. -/
inductive Occurrence where
  | asks (index : Nat) (request : Request) (highlighter : Highlighter)
  | other (event : Event) (asksNothing : event.AsksNothing)

namespace Occurrence

def directory? : Occurrence → Option Location
  | .asks .. => none
  | .other event _ => event.directory?

def IsServed : Occurrence → Prop
  | .asks _ request highlighter => request.IsServed highlighter
  | .other .. => True

/-- What a request is answered in a system. -/
def outcome? (system : System) : Occurrence → Option Outcome
  | .asks index request highlighter =>
    system.processes[index]?.map fun process =>
      (process.respond (process.sees system.tree) request highlighter).2.2
  | .other .. => none

def endsPlain (system : System) (occurrence : Occurrence) : Bool :=
  (occurrence.outcome? system).any (·.status.isPlain)

end Occurrence

namespace System

/-- One occurrence with its effects, if it is possible. -/
def follow?
    (environment : Environment) (directory : Location) (system : System) :
    Occurrence → Option System
  | .asks index request highlighter => do
    let process ← system.processes[index]?
    let seen := process.sees system.tree
    let (after, tree, outcome) := process.respond seen request highlighter
    return ⟨tree, system.processes.set index after,
      ⟨request, process, seen, after, outcome⟩ :: system.visits⟩
  | .other event _ => system.step? environment directory event

/-- Where a list of occurrences leads, if all of them are possible. -/
def followAll?
    (environment : Environment) (directory : Location) (system : System)
    (occurrences : List Occurrence) : Option System :=
  occurrences.foldlM (follow? environment directory) system

/-- The occurrences without the requests that end plain. -/
def remaining
    (environment : Environment) (directory : Location) :
    System → List Occurrence → List Occurrence
  | _, [] => []
  | system, occurrence :: occurrences =>
    match system.follow? environment directory occurrence with
    | none => occurrence :: occurrences
    | some next =>
      if occurrence.endsPlain system then
        next.remaining environment directory occurrences
      else occurrence :: next.remaining environment directory occurrences

end System

namespace Visit

/-- A visit without what the process has noted and counted before and after it. -/
def bare (visit : Visit) : Visit :=
  { visit with process := visit.process.bare, after := visit.after.bare }

/-- Whether no theme has changed for the processes of any one working directory. -/
def ThemesStay (environment : Environment) (visits : List Visit) : Prop :=
  ∀ working,
    HaveSameThemes environment
      (visits.filter fun visit => visit.process.working = working)

/-- The palette that the first request for a theme finds from a working directory. -/
def paletteFrom
    (environment : Environment) (visits : List Visit) (working : Location)
    (themeId : String) : Palette :=
  paletteAmong environment (visits.filter fun visit => visit.process.working = working)
    themeId

theorem ThemesStay.palette_eq
    {environment : Environment} {visits : List Visit}
    (stay : ThemesStay environment visits) {visit : Visit} (member : visit ∈ visits) :
    (Theme.loadOrFallback environment visit.tree visit.request.themeId).palette =
      paletteFrom environment visits visit.process.working visit.request.themeId :=
  (stay visit.process.working).palette_eq (List.mem_filter.mpr ⟨member, by simp⟩)

end Visit

/-- The tree without the process that sees it. -/
def FileTree.detached (tree : FileTree) : FileTree :=
  { tree with working := [], process := 0, named := 0 }

namespace System

/-- Whether two systems have the same tree and the same processes, but for what these have noted
and counted. -/
structure Alike (first second : System) : Prop where
  tree : first.tree.detached = second.tree.detached
  processes : first.processes.map Process.bare = second.processes.map Process.bare

/-- Whether a system is alike to another one and was visited in the same way, but for the visits
that ended plain there. -/
structure LacksPlain (thinned full : System) : Prop extends thinned.Alike full where
  visits :
    thinned.visits.map Visit.bare =
      (full.visits.filter fun visit => !visit.outcome.status.isPlain).map Visit.bare

namespace Alike

variable {first second : System} (alike : first.Alike second)

include alike

theorem symm : second.Alike first :=
  ⟨alike.tree.symm, alike.processes.symm⟩

theorem trans {third : System} (later : second.Alike third) : first.Alike third :=
  ⟨alike.tree.trans later.tree, alike.processes.trans later.processes⟩

theorem exists_process
    {index : Nat} {process : Process} (present : first.processes[index]? = some process) :
    ∃ counterpart,
      second.processes[index]? = some counterpart ∧ counterpart.bare = process.bare := by
  have here := congrArg (·[index]?) alike.processes
  rw [List.getElem?_map, List.getElem?_map, present] at here
  obtain ⟨counterpart, isHere, same⟩ := Option.map_eq_some_iff.mp here.symm
  exact ⟨counterpart, isHere, same⟩

/-- Counterparts see the same. -/
theorem sees_eq
    {process counterpart : Process} (same : counterpart.bare = process.bare) :
    counterpart.sees second.tree = process.sees first.tree := by
  calc counterpart.sees second.tree
    _ = counterpart.bare.sees second.tree.detached := rfl
    _ = process.bare.sees first.tree.detached := by rw [same, alike.tree]
    _ = process.sees first.tree := rfl

/-- Alike systems stay so when counterparts go on in the same way. -/
theorem set
    (tree : FileTree) (index : Nat) {after counterpart : Process}
    (same : counterpart.bare = after.bare) (visits others : List Visit) :
    Alike ⟨tree, first.processes.set index after, visits⟩
      ⟨tree, second.processes.set index counterpart, others⟩ := by
  refine ⟨rfl, ?_⟩
  rw [List.map_set, List.map_set, alike.processes, same]

end Alike

end System

namespace Process

/-- A process after an outcome that has left some cache. -/
def replied (process : Process) (request : Request) (outcome : Outcome) (cache : Cache) :
    Process :=
  { process with queue := process.queueAfter request outcome }.withCache cache

theorem queueAfter_of_isPlain
    {outcome : Outcome} (plain : outcome.status.isPlain = true) (process : Process)
    (request : Request) :
    process.queueAfter request outcome = process.queue := by
  unfold queueAfter
  split
  · next highlighted _ =>
      rw [highlighted] at plain
      cases plain
  · rfl

/-- A plain outcome that leaves the cache leaves the process. -/
theorem replied_of_isPlain
    {outcome : Outcome} (plain : outcome.status.isPlain = true) (process : Process)
    (request : Request) :
    process.replied request outcome process.previewer.cache = process := by
  rw [replied, queueAfter_of_isPlain plain]
  rfl

end Process

/-- Whether all entries in the directories for previews can be decoded and none was given up. -/
def FileTree.IsTidy (isCache : Location → Prop) (tree : FileTree) : Prop :=
  ∀ location, isCache location → ∀ key bytes,
    tree.entryAt? location key = some bytes →
      ∃ styled, Entry.decode bytes = .ok styled ∧ styled.degraded = false

/-- Whether a process knows the palettes of themes, and has in memory and in the queue nothing
that was given up. -/
structure Process.IsTidy
    (environment : Environment) (isCache : Location → Prop)
    (paletteOf : Location → String → Palette) (process : Process) : Prop where
  environment : process.previewer.environment = environment
  palettes : process.previewer.PalettesAre (paletteOf process.working)
  isIn : ∀ disk, process.previewer.cache.disk = some disk →
    isCache (disk.config.directory.locationFrom process.working)
  memory : process.previewer.cache.memory.Holds fun _ styled => styled.degraded = false
  pending : ∀ job ∈ process.pending, job.2.isWellFormed = true ∧ job.2.degraded = false

namespace FileTree.IsTidy

variable
    {isCache : Location → Prop} {tree changed : FileTree} (tidy : tree.IsTidy isCache)

include tidy

theorem of_loses (loses : ∀ location, LosesEntries location tree changed) :
    changed.IsTidy isCache :=
  fun location cache key bytes entry =>
    tidy location cache key bytes ((loses location).entryAt?_eq_some entry)

theorem entriesHold {location : Location} (cache : isCache location) :
    tree.EntriesHold location fun _ styled => styled.degraded = false := by
  rintro key styled ⟨bytes, entry, decodes⟩
  obtain ⟨other, otherDecodes, notDegraded⟩ := tidy location cache key bytes entry
  rw [decodes] at otherDecodes
  cases otherDecodes
  exact notDegraded

section Reply

variable
    {cache after : Cache} {request : Request} {highlighter : Highlighter}
    {palette : Palette} {outcome : Outcome}
    (isIn : ∀ disk, cache.disk = some disk →
      isCache (disk.config.directory.locationFrom tree.working))

include isIn

theorem exists_decode {key : Key} {disk : DiskTier} (present : cache.disk = some disk)
    {bytes : Bytes}
    (entry :
      tree.entryAt? (disk.config.directory.locationFrom tree.working) key = some bytes) :
    ∃ styled, Entry.decode bytes = .ok styled := by
  obtain ⟨styled, decodes, _⟩ := tidy _ (isIn disk present) key bytes entry
  exact ⟨styled, decodes⟩

/-- A reply loses no entry, and it puts nothing into memory that was given up. -/
theorem reply
    (memory : cache.memory.Holds fun _ styled => styled.degraded = false)
    (served : request.IsServed highlighter)
    (replies : cache.reply tree request highlighter palette = (after, changed, outcome)) :
    changed.IsTidy isCache ∧ after.disk = cache.disk ∧
      (after.memory.Holds fun _ styled => styled.degraded = false) ∧
      (outcome.status = .highlighted →
        outcome.styled.isWellFormed = true ∧ outcome.styled.degraded = false) := by
  rcases Cache.reply_cases (fun _ present _ => tidy.exists_decode isIn present) replies with
    ⟨tier, hit, looks⟩ | ⟨rfl, isUncached, rfl⟩
  · obtain ⟨sameDisk, memory, keeps, _⟩ :=
      Cache.lookup_eq_some memory
        (fun disk present => tidy.entriesHold (isIn disk present)) looks
    refine ⟨tidy.of_loses fun location => (keeps location).loses, sameDisk, memory, ?_⟩
    intro highlighted
    rw [hit] at highlighted
    cases highlighted
  · refine ⟨tidy, Cache.disk_keep cache request outcome, ?_⟩
    rcases request.uncached_cases highlighter palette with
      ⟨spans, finishes, highlighted⟩ | ⟨notHighlighted, _⟩
    · rw [highlighted] at isUncached
      subst isUncached
      exact ⟨memory.set rfl, fun _ => ⟨served spans finishes, rfl⟩⟩
    · rw [← isUncached] at notHighlighted
      rw [Cache.keep_of_ne_highlighted notHighlighted]
      exact ⟨memory, fun highlighted => absurd highlighted notHighlighted⟩

/-- A plain reply changes nothing. -/
theorem reply_of_isPlain
    (plain : outcome.status.isPlain = true)
    (replies : cache.reply tree request highlighter palette = (after, changed, outcome)) :
    changed = tree ∧ after = cache := by
  rcases Cache.reply_cases (fun _ present _ => tidy.exists_decode isIn present) replies with
    ⟨tier, hit, _⟩ | ⟨same, _, rfl⟩
  · rw [hit] at plain
    cases plain
  · refine ⟨same, Cache.keep_of_ne_highlighted (fun highlighted => ?_) cache request⟩
    rw [highlighted] at plain
    cases plain

end Reply

end FileTree.IsTidy

namespace Process.IsTidy

variable
    {environment : Environment} {isCache : Location → Prop}
    {paletteOf : Location → String → Palette} {process after : Process}
    {tree changed : FileTree}

theorem launch
    {working : Location} {number memoryEntries : Nat} {disk : Option DiskConfig}
    (opens : ∀ location ∈ disk.map (·.directory.locationFrom working), isCache location)
    (entries : tree.IsTidy isCache)
    (launches :
      Process.launch environment tree working number memoryEntries disk =
        (process, changed)) :
    process.IsTidy environment isCache paletteOf ∧ changed.IsTidy isCache := by
  obtain ⟨keeps, sameWorking, sameEnvironment, palettes, memory, pending, isOpened⟩ :=
    launch_spec launches
  have here : ({ tree with working, process := number, named := 0 } : FileTree).IsTidy isCache :=
    entries
  refine
    ⟨⟨sameEnvironment, ?_, ?_, ?_, ?_⟩,
      here.of_loses fun location => (keeps location).loses⟩
  · intro id palette remembered
    rw [palettes] at remembered
    cases remembered
  · intro opened present
    obtain ⟨config, wanted, _, rfl⟩ := isOpened opened present
    rw [sameWorking]
    exact opens _ (Option.map_eq_some_iff.mpr ⟨_, wanted, rfl⟩)
  · rw [memory]
    exact MemoryTier.holds_empty memoryEntries
  · intro job member
    rw [pending] at member
    cases member

variable
    (tidy : process.IsTidy environment isCache paletteOf)
    (located : tree.working = process.working)
    (entries : tree.IsTidy isCache)

include tidy entries

theorem of_acts (acts : process.Acts after tree changed) :
    after.IsTidy environment isCache paletteOf ∧ changed.IsTidy isCache := by
  refine
    ⟨⟨acts.environment.trans tidy.environment, ?_, ?_,
        fun entry member => tidy.memory entry (acts.memory member),
        fun job waits => tidy.pending job (acts.pending waits)⟩,
      ?_⟩
  · rw [Previewer.PalettesAre, acts.palettes, acts.working]
    exact tidy.palettes
  · intro disk present
    obtain ⟨old, isOld, same⟩ := acts.exists_disk present
    rw [← same, acts.working]
    exact tidy.isIn old isOld
  · intro location cache key bytes entry
    rcases acts.entries entry with old | ⟨_, _, _, styled, waits, rfl⟩
    · exact entries location cache key bytes old
    · obtain ⟨wellFormed, notDegraded⟩ := tidy.pending (key, styled) waits
      exact ⟨styled, Entry.decode_encode_of_isWellFormed wellFormed, notDegraded⟩

include located

/-- What an answer makes of a process and its tree is what the cache replies, and it is tidy
again. -/
theorem respond
    {request : Request} {highlighter : Highlighter} {outcome : Outcome}
    (served : request.IsServed highlighter)
    (themed :
      (Theme.loadOrFallback environment tree request.themeId).palette =
        paletteOf process.working request.themeId)
    (responds : process.respond tree request highlighter = (after, changed, outcome)) :
    after.IsTidy environment isCache paletteOf ∧ changed.IsTidy isCache ∧
      ∃ cache,
        process.previewer.cache.reply tree request highlighter
            (paletteOf process.working request.themeId) = (cache, changed, outcome) ∧
          after.bare = process.bare.replied request outcome cache := by
  obtain ⟨previewer, answers, rfl⟩ := exists_of_respond responds
  have isIn (disk : DiskTier) (present : process.previewer.cache.disk = some disk) :
      isCache (disk.config.directory.locationFrom tree.working) := by
    rw [located]
    exact tidy.isIn disk present
  have known :
      Previewer.PalettesAre { process.previewer with highlighter }
        (paletteOf process.working) := tidy.palettes
  rw [← tidy.environment] at themed
  obtain ⟨replies, sameEnvironment, palettes⟩ :=
    Previewer.reply_of_answer answers fun cache looks => by
      obtain ⟨_, rfl⟩ :=
        Cache.eq_of_lookup_eq_none (fun _ present _ => entries.exists_decode isIn present)
          looks
      exact (known.palette themed).1
  obtain ⟨tidyAfter, sameDisk, memory, highlighted⟩ :=
    entries.reply isIn tidy.memory served replies
  refine
    ⟨⟨sameEnvironment.trans tidy.environment, ?_, ?_, memory, ?_⟩, tidyAfter, _, replies, ?_⟩
  · rcases palettes with same | ⟨cache, looks, same⟩
    · rw [Previewer.PalettesAre, same]
      exact tidy.palettes
    · obtain ⟨_, rfl⟩ :=
        Cache.eq_of_lookup_eq_none (fun _ present _ => entries.exists_decode isIn present)
          looks
      rw [Previewer.PalettesAre, same]
      exact (known.palette themed).2
  · dsimp only
    rw [sameDisk]
    exact tidy.isIn
  · intro job member
    rcases mem_pending.mp member with writing | queued
    · exact tidy.pending job (mem_pending.mpr (Or.inl writing))
    rcases mem_queueAfter queued with old | ⟨status, rfl⟩
    · exact tidy.pending job (mem_pending.mpr (Or.inr old))
    · exact highlighted status
  · obtain ⟨_, _, _, _, _⟩ := previewer
    dsimp only at sameEnvironment
    subst sameEnvironment
    rfl

end Process.IsTidy

namespace System

variable
    {environment : Environment} {directory : Location} {system next : System}

theorem exists_of_follow_asks
    {index : Nat} {request : Request} {highlighter : Highlighter}
    (follows :
      system.follow? environment directory (.asks index request highlighter) = some next) :
    ∃ process after tree outcome,
      system.processes[index]? = some process ∧
        process.respond (process.sees system.tree) request highlighter =
            (after, tree, outcome) ∧
          next =
            ⟨tree, system.processes.set index after,
              ⟨request, process, process.sees system.tree, after, outcome⟩ ::
                system.visits⟩ := by
  obtain ⟨process, present, same⟩ := Option.bind_eq_some_iff.mp follows
  exact ⟨process, _, _, _, present, rfl, (Option.some.inj same).symm⟩

section Asks

variable
    {index : Nat} {request : Request} {highlighter : Highlighter} {process after : Process}
    {tree : FileTree} {outcome : Outcome}
    (present : system.processes[index]? = some process)
    (responds :
      process.respond (process.sees system.tree) request highlighter =
        (after, tree, outcome))

include present responds

theorem follow_asks :
    system.follow? environment directory (.asks index request highlighter) =
      some
        ⟨tree, system.processes.set index after,
          ⟨request, process, process.sees system.tree, after, outcome⟩ ::
            system.visits⟩ := by
  unfold follow?
  dsimp only
  rw [present, Option.bind_eq_bind, Option.bind_some, responds]
  rfl

theorem outcome?_asks :
    (Occurrence.asks index request highlighter).outcome? system = some outcome := by
  rw [Occurrence.outcome?, present, Option.map_some, responds]

end Asks

theorem visits_of_step_asksNothing
    {event : Event} (asksNothing : event.AsksNothing)
    (steps : system.step? environment directory event = some next) :
    next.visits = system.visits := by
  by_cases ofProcess : event.IsOfProcess
  · obtain ⟨index, action, _, isAct⟩ := Event.exists_action ofProcess
    rw [isAct] at steps
    obtain ⟨_, _, _, _, _, rfl⟩ := exists_of_act steps
    rfl
  cases event with
  | preview => exact asksNothing.elim
  | take | write | settle | flush | clear | forget | sweep =>
      exact absurd trivial ofProcess
  | launch | relaunch | deleteDirectory | setClock =>
      cases steps
      rfl

theorem visits_of_follow
    {occurrence : Occurrence}
    (follows : system.follow? environment directory occurrence = some next) :
    system.visits ⊆ next.visits := by
  cases occurrence with
  | asks index request highlighter =>
      obtain ⟨_, _, _, _, _, _, rfl⟩ := exists_of_follow_asks follows
      exact List.subset_cons_self _ _
  | other event asksNothing => exact visits_of_step follows

theorem visits_of_followAll
    {occurrences : List Occurrence} {final : System}
    (follows : system.followAll? environment directory occurrences = some final) :
    system.visits ⊆ final.visits :=
  visits_of_foldlM visits_of_follow follows

/-- Whether all processes and entries are tidy. -/
structure IsTidy
    (environment : Environment) (isCache : Location → Prop)
    (paletteOf : Location → String → Palette) (system : System) : Prop where
  processes : ∀ process ∈ system.processes, process.IsTidy environment isCache paletteOf
  tree : system.tree.IsTidy isCache

namespace IsTidy

variable
    {isCache : Location → Prop} {paletteOf : Location → String → Palette}
    (tidy : system.IsTidy environment isCache paletteOf)

include tidy

theorem process_of_getElem?
    {index : Nat} {process : Process}
    (present : system.processes[index]? = some process) :
    process.IsTidy environment isCache paletteOf :=
  tidy.processes process (List.mem_of_getElem? present)

theorem sees (process : Process) : (process.sees system.tree).IsTidy isCache :=
  tidy.tree

/-- Everything but a request leaves all processes and entries tidy. -/
theorem step
    {event : Event} (asksNothing : event.AsksNothing)
    (opens : ∀ location ∈ event.directory?, isCache location)
    (steps : system.step? environment directory event = some next) :
    next.IsTidy environment isCache paletteOf := by
  by_cases ofProcess : event.IsOfProcess
  · obtain ⟨index, action, isAction, isAct⟩ := Event.exists_action ofProcess
    rw [isAct] at steps
    obtain ⟨process, after, tree, present, done, rfl⟩ := exists_of_act steps
    obtain ⟨tidyAfter, tidyTree⟩ :=
      (tidy.process_of_getElem? present).of_acts (tidy.sees process) (isAction.acts done)
    exact ⟨forall_mem_set tidy.processes index tidyAfter, tidyTree⟩
  cases event with
  | preview => exact asksNothing.elim
  | take | write | settle | flush | clear | forget | sweep =>
      exact absurd trivial ofProcess
  | launch working number memoryEntries disk =>
      obtain ⟨process, tree, launches, rfl⟩ := exists_of_step_launch steps
      obtain ⟨launched, tidyTree⟩ := Process.IsTidy.launch opens tidy.tree launches
      refine ⟨fun other member => ?_, tidyTree⟩
      rcases List.mem_append.mp member with old | new
      · exact tidy.processes other old
      · rw [List.mem_singleton.mp new]
        exact launched
  | relaunch index working number memoryEntries disk =>
      obtain ⟨process, tree, launches, rfl⟩ := exists_of_step_relaunch steps
      obtain ⟨launched, tidyTree⟩ := Process.IsTidy.launch opens tidy.tree launches
      exact ⟨forall_mem_set tidy.processes index launched, tidyTree⟩
  | deleteDirectory =>
      cases steps
      exact
        ⟨tidy.processes,
          tidy.tree.of_loses fun location =>
            losesEntries_eraseBelow system.tree location directory⟩
  | setClock time =>
      cases steps
      exact ⟨tidy.processes, tidy.tree⟩

end IsTidy

theorem Alike.launch_eq
    {first second : System} (alike : first.Alike second) (environment : Environment)
    (working : Location) (number memoryEntries : Nat) (disk : Option DiskConfig) :
    Process.launch environment second.tree working number memoryEntries disk =
      Process.launch environment first.tree working number memoryEntries disk := by
  calc Process.launch environment second.tree working number memoryEntries disk
    _ = Process.launch environment second.tree.detached working number memoryEntries
        disk := rfl
    _ = Process.launch environment first.tree.detached working number memoryEntries
        disk := by rw [alike.tree]

/-- What is no request happens in alike systems in the same way, and they stay alike. -/
theorem Alike.step
    {first second : System} (alike : first.Alike second) {event : Event}
    (asksNothing : event.AsksNothing)
    (steps : first.step? environment directory event = some next) :
    ∃ other, second.step? environment directory event = some other ∧ next.Alike other := by
  by_cases ofProcess : event.IsOfProcess
  · obtain ⟨index, action, isAction, isAct⟩ := Event.exists_action ofProcess
    rw [isAct] at steps ⊢
    obtain ⟨process, after, moved, present, done, rfl⟩ := exists_of_act steps
    obtain ⟨counterpart, isHere, same⟩ := alike.exists_process present
    have doneBare := isAction.bare counterpart (process.sees first.tree)
    rw [same, isAction.bare process, done] at doneBare
    obtain ⟨⟨other, changed⟩, doneToo, pair⟩ := Option.map_eq_some_iff.mp doneBare.symm
    obtain ⟨sameAfter, rfl⟩ := Prod.mk.inj pair
    refine ⟨⟨changed, second.processes.set index other, second.visits⟩, ?_,
      alike.set changed index sameAfter first.visits second.visits⟩
    rw [act, isHere, Option.bind_eq_bind, Option.bind_some, alike.sees_eq same, doneToo]
    rfl
  cases event with
  | preview => exact asksNothing.elim
  | take | write | settle | flush | clear | forget | sweep =>
      exact absurd trivial ofProcess
  | launch working number memoryEntries disk =>
      obtain ⟨process, changed, launches, rfl⟩ := exists_of_step_launch steps
      have launchesToo :=
        (alike.launch_eq environment working number memoryEntries disk).trans launches
      refine ⟨⟨changed, second.processes ++ [process], second.visits⟩, ?_, rfl, ?_⟩
      · unfold step?
        dsimp only
        rw [launchesToo]
      · rw [List.map_append, List.map_append, alike.processes]
  | relaunch index working number memoryEntries disk =>
      obtain ⟨process, changed, launches, rfl⟩ := exists_of_step_relaunch steps
      have launchesToo :=
        (alike.launch_eq environment working number memoryEntries disk).trans launches
      refine ⟨⟨changed, second.processes.set index process, second.visits⟩, ?_,
        alike.set changed index rfl first.visits second.visits⟩
      unfold step?
      dsimp only
      rw [launchesToo]
  | deleteDirectory =>
      cases steps
      exact ⟨_, rfl, congrArg (·.eraseBelow directory) alike.tree, alike.processes⟩
  | setClock time =>
      cases steps
      exact
        ⟨_, rfl, congrArg (fun tree : FileTree => { tree with clock := time }) alike.tree,
          alike.processes⟩

section Request

variable
    {isCache : Location → Prop} {paletteOf : Location → String → Palette}
    {thinned full : System} {index : Nat} {request : Request} {highlighter : Highlighter}
    (tidy : full.IsTidy environment isCache paletteOf)
    (served : request.IsServed highlighter)
    {process after : Process} {changed : FileTree} {outcome : Outcome}
    (present : full.processes[index]? = some process)
    (themed :
      (Theme.loadOrFallback environment (process.sees full.tree) request.themeId).palette =
        paletteOf process.working request.themeId)
    (responds :
      process.respond (process.sees full.tree) request highlighter =
        (after, changed, outcome))

include tidy served present themed responds

/-- An answer leaves all processes and entries tidy. -/
theorem IsTidy.answered (visits : List Visit) :
    IsTidy environment isCache paletteOf
      ⟨changed, full.processes.set index after, visits⟩ := by
  obtain ⟨tidyAfter, tidyTree, _⟩ :=
    (tidy.process_of_getElem? present).respond rfl (tidy.sees process) served themed responds
  exact ⟨forall_mem_set tidy.processes index tidyAfter, tidyTree⟩

/-- An answer that ends plain leaves everything but what the process has noted and counted. -/
theorem IsTidy.alike_answered
    (plain : outcome.status.isPlain = true) (visits : List Visit) :
    Alike full ⟨changed, full.processes.set index after, visits⟩ := by
  obtain ⟨_, _, cache, replies, sameAfter⟩ :=
    (tidy.process_of_getElem? present).respond rfl (tidy.sees process) served themed responds
  obtain ⟨rfl, rfl⟩ :=
    (tidy.sees process).reply_of_isPlain (tidy.process_of_getElem? present).isIn plain replies
  have unchanged : after.bare = process.bare :=
    sameAfter.trans (Process.replied_of_isPlain plain process.bare request)
  obtain ⟨within, rfl⟩ := List.getElem?_eq_some_iff.mp present
  refine ⟨rfl, ?_⟩
  dsimp only
  rw [List.map_set, unchanged, ← List.map_set, List.set_getElem_self]

variable (alike : thinned.Alike full) (tidyToo : thinned.IsTidy environment isCache paletteOf)

include alike tidyToo

/-- The counterpart of a process in an alike system gives the same answer. -/
theorem Alike.exists_respond :
    ∃ counterpart other,
      thinned.processes[index]? = some counterpart ∧
        counterpart.sees thinned.tree = process.sees full.tree ∧
        counterpart.bare = process.bare ∧
        counterpart.respond (counterpart.sees thinned.tree) request highlighter =
          (other, changed, outcome) ∧
        other.bare = after.bare := by
  obtain ⟨_, _, cache, replies, sameAfter⟩ :=
    (tidy.process_of_getElem? present).respond rfl (tidy.sees process) served themed responds
  obtain ⟨counterpart, isHere, same⟩ := alike.symm.exists_process present
  have sees := alike.symm.sees_eq same
  have sameWorking : counterpart.working = process.working := (congrArg Process.working same :)
  have sameCache : counterpart.previewer.cache = process.previewer.cache :=
    (congrArg (·.previewer.cache) same :)
  cases respondsToo :
      counterpart.respond (process.sees full.tree) request highlighter with
  | mk other rest =>
  obtain ⟨changedToo, outcomeToo⟩ := rest
  rw [← sameWorking] at themed
  obtain ⟨_, _, cacheToo, repliesToo, sameOther⟩ :=
    (tidyToo.process_of_getElem? isHere).respond sameWorking.symm (tidy.sees process) served
      themed respondsToo
  rw [sameCache, sameWorking, replies] at repliesToo
  cases repliesToo
  refine ⟨counterpart, other, isHere, sees, same, ?_, ?_⟩
  · rw [sees]
    exact respondsToo
  · rw [sameOther, sameAfter, same]

end Request

/-- Whether requests have found the palettes of their themes. -/
def HasPalettes
    (environment : Environment) (paletteOf : Location → String → Palette)
    (system : System) : Prop :=
  ∀ visit ∈ system.visits,
    (Theme.loadOrFallback environment visit.tree visit.request.themeId).palette =
      paletteOf visit.process.working visit.request.themeId

section Run

variable
    {isCache : Location → Prop} {paletteOf : Location → String → Palette}
    {thinned full final : System}

/-- A request that ends plain in the full run is left out, and everything else happens in both
runs. -/
theorem LacksPlain.follow
    (lacks : thinned.LacksPlain full)
    (tidy : full.IsTidy environment isCache paletteOf)
    (tidyToo : thinned.IsTidy environment isCache paletteOf) {occurrence : Occurrence}
    (opens : ∀ location ∈ occurrence.directory?, isCache location)
    (served : occurrence.IsServed)
    (follows : full.follow? environment directory occurrence = some next)
    (themed : next.HasPalettes environment paletteOf) :
    next.IsTidy environment isCache paletteOf ∧
      if occurrence.endsPlain full then thinned.LacksPlain next
      else
        ∃ other,
          thinned.follow? environment directory occurrence = some other ∧
            other.LacksPlain next ∧ other.IsTidy environment isCache paletteOf := by
  cases occurrence with
  | other event asksNothing =>
      refine ⟨tidy.step asksNothing opens follows, ?_⟩
      rw [if_neg (by simp [Occurrence.endsPlain, Occurrence.outcome?])]
      obtain ⟨other, followsToo, alike⟩ := lacks.symm.step asksNothing follows
      refine
        ⟨other, followsToo, ⟨alike.symm, ?_⟩, tidyToo.step asksNothing opens followsToo⟩
      rw [visits_of_step_asksNothing asksNothing follows,
        visits_of_step_asksNothing asksNothing followsToo]
      exact lacks.visits
  | asks index request highlighter =>
      obtain ⟨process, after, changed, outcome, present, responds, rfl⟩ :=
        exists_of_follow_asks follows
      have themed := themed _ List.mem_cons_self
      refine ⟨tidy.answered served present themed responds _, ?_⟩
      rw [Occurrence.endsPlain, outcome?_asks present responds, Option.any_some]
      split
      · next plain =>
          refine
            ⟨lacks.toAlike.trans
                (tidy.alike_answered served present themed responds plain _), ?_⟩
          rw [List.filter_cons_of_neg (by simp [plain])]
          exact lacks.visits
      · next shown =>
          obtain ⟨counterpart, other, isHere, sees, same, respondsToo, sameAfter⟩ :=
            lacks.toAlike.exists_respond tidy served present themed responds tidyToo
          have sameWorking : counterpart.working = process.working :=
            (congrArg Process.working same :)
          refine
            ⟨_, follow_asks isHere respondsToo,
              ⟨lacks.toAlike.set changed index sameAfter.symm _ _, ?_⟩,
              tidyToo.answered served isHere (by rw [sees, sameWorking]; exact themed)
                respondsToo _⟩
          rw [List.filter_cons_of_pos (by simp [shown]), List.map_cons, List.map_cons,
            lacks.visits, Visit.bare, Visit.bare]
          dsimp only
          rw [same, sees, sameAfter]

/-- The requests that do not end plain, and everything else, can happen without those that do. -/
theorem LacksPlain.exists_followAll
    (lacks : thinned.LacksPlain full)
    (tidy : full.IsTidy environment isCache paletteOf)
    (tidyToo : thinned.IsTidy environment isCache paletteOf)
    {occurrences : List Occurrence}
    (opens : ∀ occurrence ∈ occurrences, ∀ location ∈ occurrence.directory?,
      isCache location)
    (served : ∀ occurrence ∈ occurrences, occurrence.IsServed)
    (follows : full.followAll? environment directory occurrences = some final)
    (themed : final.HasPalettes environment paletteOf) :
    ∃ last,
      thinned.followAll? environment directory
          (full.remaining environment directory occurrences) = some last ∧
        last.LacksPlain final ∧ final.IsTidy environment isCache paletteOf ∧
          last.IsTidy environment isCache paletteOf := by
  induction occurrences generalizing full thinned with
  | nil =>
      cases follows
      exact ⟨thinned, rfl, lacks, tidy, tidyToo⟩
  | cons occurrence occurrences ih =>
      obtain ⟨next, first, goesOn⟩ := Option.bind_eq_some_iff.mp follows
      obtain ⟨opensFirst, opens⟩ := List.forall_mem_cons.mp opens
      obtain ⟨servedFirst, served⟩ := List.forall_mem_cons.mp served
      obtain ⟨tidyNext, step⟩ :=
        lacks.follow tidy tidyToo opensFirst servedFirst first fun visit member =>
          themed visit (visits_of_followAll goesOn member)
      simp only [remaining, first]
      split at step
      · next plain =>
          rw [if_pos plain]
          exact ih step tidyNext tidyToo opens served goesOn
      · next shown =>
          obtain ⟨other, firstToo, lacksNext, tidyOther⟩ := step
          rw [if_neg shown]
          obtain ⟨last, goesOnToo, agreed⟩ :=
            ih lacksNext tidyNext tidyOther opens served goesOn
          exact ⟨last, Option.bind_eq_some_iff.mpr ⟨other, firstToo, goesOnToo⟩, agreed⟩

/-- Whatever can be asked next is answered the same with and without the requests that ended
plain. -/
theorem LacksPlain.outcome?_eq
    (lacks : thinned.LacksPlain full)
    (tidy : full.IsTidy environment isCache paletteOf)
    (tidyToo : thinned.IsTidy environment isCache paletteOf) {occurrence : Occurrence}
    (served : occurrence.IsServed)
    (follows : full.follow? environment directory occurrence = some next)
    (themed : next.HasPalettes environment paletteOf) :
    occurrence.outcome? thinned = occurrence.outcome? full := by
  cases occurrence with
  | other event asksNothing => rfl
  | asks index request highlighter =>
      obtain ⟨process, after, changed, outcome, present, responds, rfl⟩ :=
        exists_of_follow_asks follows
      have themed := themed _ List.mem_cons_self
      obtain ⟨counterpart, other, isHere, _, _, respondsToo, _⟩ :=
        lacks.toAlike.exists_respond tidy served present themed responds tidyToo
      rw [outcome?_asks present responds, outcome?_asks isHere respondsToo]

end Run

/-- Whether some occurrence is to open a disk tier in a directory. -/
def IsCacheOf (occurrences : List Occurrence) (location : Location) : Prop :=
  ∃ occurrence ∈ occurrences, location ∈ occurrence.directory?

/-- At the beginning everything is tidy if there are no entries where disk tiers will be. -/
theorem isTidy_start
    {tree : FileTree} {occurrences : List Occurrence}
    (noEntries : ∀ location, IsCacheOf occurrences location → ∀ key,
      tree.entryAt? location key = none)
    (environment : Environment) (paletteOf : Location → String → Palette) :
    (start tree).IsTidy environment (IsCacheOf occurrences) paletteOf := by
  refine ⟨fun _ none => absurd none List.not_mem_nil, ?_⟩
  intro location cache key bytes entry
  rw [start, noEntries location cache key] at entry
  cases entry

/-- Let all requests that end plain be left out of a run over directories without entries at
first, while no theme changes and no highlighter gives spans that are not well-formed.  Then
everything else is answered as before, memory, queues and files are the same in the end, and so is
the answer to whatever is asked next.  Nothing that was given up is in memory or on disk. -/
theorem plain_leaves_noTrace
    {tree : FileTree} {occurrences : List Occurrence} {final : System}
    (follows : (start tree).followAll? environment directory occurrences = some final)
    (noEntries : ∀ location, IsCacheOf occurrences location → ∀ key,
      tree.entryAt? location key = none)
    (served : ∀ occurrence ∈ occurrences, occurrence.IsServed)
    (stay : Visit.ThemesStay environment final.visits) :
    ∃ thinned,
      (start tree).followAll? environment directory
          ((start tree).remaining environment directory occurrences) = some thinned ∧
        thinned.LacksPlain final ∧
        (∀ occurrence next, occurrence.IsServed →
          final.follow? environment directory occurrence = some next →
            Visit.ThemesStay environment next.visits →
              occurrence.outcome? thinned = occurrence.outcome? final) ∧
        (∀ process ∈ final.processes, ∀ entry ∈ process.previewer.cache.memory.entries,
          entry.2.degraded = false) ∧
        ∀ location, IsCacheOf occurrences location → ∀ key bytes,
          final.tree.entryAt? location key = some bytes →
            ∃ styled, Entry.decode bytes = .ok styled ∧ styled.degraded = false := by
  have thin {paletteOf : Location → String → Palette}
      (themed : final.HasPalettes environment paletteOf) :=
    LacksPlain.exists_followAll ⟨⟨rfl, rfl⟩, rfl⟩
      (isTidy_start noEntries environment paletteOf)
      (isTidy_start noEntries environment paletteOf)
      (fun occurrence member location here => ⟨occurrence, member, here⟩) served follows themed
  obtain ⟨thinned, followsToo, lacks, tidy, _⟩ := thin fun _ => stay.palette_eq
  refine ⟨thinned, followsToo, lacks, ?_, ?_, tidy.tree⟩
  · intro occurrence next servedNext goesOn stayNext
    have themed : next.HasPalettes environment (Visit.paletteFrom environment next.visits) :=
      fun _ => stayNext.palette_eq
    obtain ⟨same, isSame, _, tidy, tidyToo⟩ :=
      thin fun visit member => themed visit (visits_of_follow goesOn member)
    rw [followsToo] at isSame
    cases isSame
    exact lacks.outcome?_eq tidy tidyToo servedNext goesOn themed
  · intro process member
    exact (tidy.processes process member).memory

/-- A process is given no time for a document, highlights it when it is asked again, writes it to
disk, and is asked once more. -/
def sampleAttempts : List Occurrence :=
  [.other (.launch [] 1 1 (some ⟨sampleDirectory, 1, 1000, 1⟩)) trivial,
    .asks 0 { sampleRequest with deadline := .milliseconds 0 } .patterns,
    .asks 0 sampleRequest .patterns, .other (.take 0) trivial, .other (.write 0) trivial,
    .other (.settle 0) trivial, .asks 0 sampleRequest .patterns]

/-- Without the request that was given no time the others are answered as with it. -/
theorem plain_leaves_noTrace_sample :
    ∃ final thinned,
      (start (.empty ⟨0⟩)).followAll? sampleEnvironment
          (sampleDirectory.locationFrom []) sampleAttempts = some final ∧
        final.visits.map (·.outcome.status) =
          [.cacheHit .memory, .highlighted, .degraded .deadlineExceeded] ∧
        (start (.empty ⟨0⟩)).followAll? sampleEnvironment
            (sampleDirectory.locationFrom [])
            ((start (.empty ⟨0⟩)).remaining sampleEnvironment
              (sampleDirectory.locationFrom []) sampleAttempts) = some thinned ∧
        thinned.visits.map (·.outcome.status) = [.cacheHit .memory, .highlighted] ∧
        thinned.LacksPlain final := by
  obtain ⟨final, ran, statuses, same, thinned, ranToo, statusesToo⟩ :
      ∃ final ∈
        (start (.empty ⟨0⟩)).followAll? sampleEnvironment
          (sampleDirectory.locationFrom []) sampleAttempts,
        final.visits.map (·.outcome.status) =
            [.cacheHit .memory, .highlighted, .degraded .deadlineExceeded] ∧
          (∀ visit ∈ final.visits, visit.request.themeId = "") ∧
          ∃ thinned ∈
            (start (.empty ⟨0⟩)).followAll? sampleEnvironment
              (sampleDirectory.locationFrom [])
              ((start (.empty ⟨0⟩)).remaining sampleEnvironment
                (sampleDirectory.locationFrom []) sampleAttempts),
            thinned.visits.map (·.outcome.status) = [.cacheHit .memory, .highlighted] := by
    decide +kernel
  have noEntries (location : Location) (_ : IsCacheOf sampleAttempts location) (key : Key) :
      (FileTree.empty ⟨0⟩).entryAt? location key = none :=
    entryAt?_eq_none (if_neg (append_fileName_ne_nil location key))
  have served : ∀ occurrence ∈ sampleAttempts, occurrence.IsServed := by
    simp [sampleAttempts, Occurrence.IsServed, Request.isServed_patterns]
  have stay : Visit.ThemesStay sampleEnvironment final.visits := by
    intro working first member second other _
    rw [same first (List.mem_filter.mp member).1, same second (List.mem_filter.mp other).1]
    rfl
  obtain ⟨other, ranOther, lacks, _⟩ := plain_leaves_noTrace ran noEntries served stay
  rw [ranToo] at ranOther
  cases ranOther
  exact ⟨final, thinned, ran, statuses, ranToo, statusesToo, lacks⟩

end System

end SourcePreview
