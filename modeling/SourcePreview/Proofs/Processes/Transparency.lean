import SourcePreview.Proofs.Preview.Answers
import SourcePreview.Proofs.Processes.Actions

/-!
# The cache cannot be seen in the answers

Let processes share a directory that holds no entries at first.  Then an answer that was found in
the cache, in memory or on disk, and an answer that comes from the highlighter are what the request
is answered without any cache, whatever the processes did before.  What has to be true of the
requests for this is that those with the same key ask for the same, and of the themes that they
stay as they are.

The claim that is kept is about everything that can become an answer: the memory of each process,
what it has still to write, and the entries in the directory.
-/

namespace SourcePreview

open FileTree

/-- Whether everything that a process knows and has still to write is as claimed. -/
structure Process.Sound
    (environment : Environment) (directory : Location) (claim : PreviewClaim)
    (paletteOf : String → Palette) (process : Process) : Prop where
  environment : process.previewer.environment = environment
  knows : process.previewer.Knows process.working directory claim paletteOf
  pending : ∀ job ∈ process.pending, claim job.1 job.2

/-- The disk tier of a new process is in the directory where all tiers are opened. -/
theorem Process.isIn_of_launch
    {environment : Environment} {directory : Location} {tree changed : FileTree}
    {working : Location} {number memoryEntries : Nat} {disk : Option DiskConfig}
    {process : Process}
    (shared : ∀ config ∈ disk,
      (DiskTier.openAt { tree with working, process := number, named := 0 } config).2.toBool =
          true →
        config.directory.locationFrom working = directory)
    (launches :
      Process.launch environment tree working number memoryEntries disk =
        (process, changed)) :
    process.previewer.cache.IsIn process.working directory := by
  obtain ⟨_, sameWorking, _, _, _, _, opens⟩ := launch_spec launches
  intro opened present
  obtain ⟨config, wanted, succeeds, rfl⟩ := opens opened present
  rw [sameWorking]
  exact shared opened.config wanted succeeds

namespace Process.Sound

variable
    {environment : Environment} {directory : Location} {claim : PreviewClaim}
    {paletteOf : String → Palette} {process after : Process}
    {tree changed : FileTree}

/-- A new process knows nothing. -/
theorem launch
    {working : Location} {number memoryEntries : Nat} {disk : Option DiskConfig}
    (shared : ∀ config ∈ disk,
      (DiskTier.openAt { tree with working, process := number, named := 0 } config).2.toBool =
          true →
        config.directory.locationFrom working = directory)
    (entries : tree.EntriesHold directory claim)
    (launches :
      Process.launch environment tree working number memoryEntries disk =
        (after, changed)) :
    after.Sound environment directory claim paletteOf ∧
      changed.EntriesHold directory claim := by
  obtain ⟨keeps, _, same, palettes, memory, pending, _⟩ := launch_spec launches
  have here :
      ({ tree with working, process := number, named := 0 } : FileTree).EntriesHold
        directory claim := entries
  refine
    ⟨⟨same, ⟨isIn_of_launch shared launches, ?_, ?_⟩, ?_⟩,
      here.of_loses (keeps directory).loses⟩
  · rw [memory]
    exact MemoryTier.holds_empty memoryEntries
  · intro id palette remembered
    rw [palettes] at remembered
    cases remembered
  · intro job member
    rw [pending] at member
    cases member

variable
    (sound : process.Sound environment directory claim paletteOf)
    (entries : tree.EntriesHold directory claim)

include sound entries

/-- Whatever a process does apart from answering keeps all that is known as claimed. -/
theorem of_acts (acts : process.Acts after tree changed) :
    after.Sound environment directory claim paletteOf ∧
      changed.EntriesHold directory claim := by
  refine
    ⟨⟨acts.environment.trans sound.environment,
        ⟨?_, fun entry member => sound.knows.memory entry (acts.memory member), ?_⟩,
        fun job waits => sound.pending job (acts.pending waits)⟩,
      ?_⟩
  · intro disk present
    obtain ⟨old, isOld, same⟩ := acts.exists_disk present
    rw [← same, acts.working]
    exact sound.knows.isIn old isOld
  · rw [Previewer.PalettesAre, acts.palettes]
    exact sound.knows.palettes
  · rintro key styled ⟨bytes, entry, decodes⟩
    rcases acts.entries entry with old | ⟨_, _, _, written, waits, rfl⟩
    · exact entries key styled ⟨bytes, old, decodes⟩
    · obtain ⟨_, rfl⟩ := Entry.decode_encode_eq_ok_iff.mp decodes
      exact sound.pending (key, styled) waits

/-- What an answer from the cache or the highlighter shows is as claimed, and so is what the
process knows and has to write afterwards. -/
theorem preview
    {request : Request} {timing : Timing} {outcome : Outcome}
    (located : tree.working = process.working)
    (themed :
      (Theme.loadOrFallback environment tree request.themeId).palette =
        paletteOf request.themeId)
    (permits : claim request.key (request.cacheless environment tree))
    (previews : process.preview tree request timing = (after, changed, outcome)) :
    after.Sound environment directory claim paletteOf ∧
      changed.EntriesHold directory claim ∧
      (outcome.status.isCacheHit = true → claim request.key outcome.styled) ∧
      (outcome.status = .highlighted →
        outcome.styled = request.cacheless environment tree) := by
  obtain rfl := sound.environment
  obtain ⟨previewer, answers, rfl⟩ := exists_of_preview previews
  have knows :
      Previewer.Knows { process.previewer with highlighter := .timed timing }
        tree.working directory claim paletteOf := by
    rw [located]
    exact ⟨sound.knows.isIn, sound.knows.memory, sound.knows.palettes⟩
  obtain ⟨environment, knowsAfter, entriesAfter, hit, highlighted⟩ :=
    knows.answer (Highlighter.findsPatterns_timed timing) entries themed permits
      answers
  rw [located] at knowsAfter
  refine ⟨⟨environment, knowsAfter, fun job member => ?_⟩, entriesAfter, hit, highlighted⟩
  rcases mem_pending.mp member with writing | queued
  · exact sound.pending job (mem_pending.mpr (Or.inl writing))
  rcases mem_queueAfter queued with old | ⟨status, rfl⟩
  · exact sound.pending job (mem_pending.mpr (Or.inr old))
  · dsimp only
    rw [highlighted status]
    exact permits

end Process.Sound

/-- Whether an event opens a disk tier nowhere but in the directory. -/
def Event.Shares (directory : Location) (system : System) : Event → Prop
  | .launch working number _ disk | .relaunch _ working number _ disk =>
    ∀ config ∈ disk,
      (DiskTier.openAt
          { system.tree with working, process := number, named := 0 } config).2.toBool =
          true →
        config.directory.locationFrom working = directory
  | _ => True

instance (directory : Location) (system : System) :
    (event : Event) → Decidable (event.Shares directory system)
  | .launch .. => inferInstanceAs (Decidable (∀ config ∈ _, _ → _))
  | .relaunch .. => inferInstanceAs (Decidable (∀ config ∈ _, _ → _))
  | .preview .. | .take _ | .write _ | .settle _ | .flush _ | .clear _ | .forget _
  | .sweep _ | .deleteDirectory | .setClock _ => inferInstanceAs (Decidable True)

/-- Whether a preview was made by the highlighter, for the request or for an earlier one. -/
def Status.IsHighlighted (status : Status) : Prop :=
  status = .highlighted ∨ status.isCacheHit = true

namespace Visit

/-- What is expected of the requests of a run. -/
structure AreConsistent
    (environment : Environment) (visits : List Visit) : Prop where
  /-- Sizes and times are those of a real machine. -/
  fits : ∀ visit ∈ visits,
    Key.Fits visit.request.path visit.request.modified visit.request.themeId
  /-- No two different materials of keys have the same digest. -/
  noCollision : ∀ first ∈ visits, ∀ second ∈ visits,
    Sha256.digest first.request.material = Sha256.digest second.request.material →
      first.request.material = second.request.material
  /-- A text does not change without its path, time, theme or language. -/
  sameText : ∀ first ∈ visits, ∀ second ∈ visits,
    first.request.path = second.request.path →
      first.request.modified = second.request.modified →
        first.request.themeId = second.request.themeId →
          first.request.actualLanguage = second.request.actualLanguage →
            first.request.text = second.request.text
  /-- A theme does not change. -/
  sameTheme : ∀ first ∈ visits, ∀ second ∈ visits,
    first.request.themeId = second.request.themeId →
      Theme.load environment first.tree first.request.themeId =
        Theme.load environment second.tree second.request.themeId

/-- The claim that a preview is what all requests of its key are answered without a cache. -/
def Agreed (environment : Environment) (visits : List Visit) : PreviewClaim :=
  fun key styled => ∀ visit ∈ visits, visit.request.key = key →
    styled = visit.request.cacheless environment visit.tree

/-- The palette that the first request for a theme finds. -/
def paletteAmong
    (environment : Environment) (visits : List Visit) (themeId : String) : Palette :=
  match visits.find? fun visit => visit.request.themeId == themeId with
  | some visit => (Theme.loadOrFallback environment visit.tree themeId).palette
  | none => Theme.fallback.palette

/-- Whether a theme that was asked for twice was the same theme both times. -/
def HaveSameThemes (environment : Environment) (visits : List Visit) : Prop :=
  ∀ first ∈ visits, ∀ second ∈ visits,
    first.request.themeId = second.request.themeId →
      Theme.load environment first.tree first.request.themeId =
        Theme.load environment second.tree second.request.themeId

namespace HaveSameThemes

variable
    {environment : Environment} {visits : List Visit}
    (same : HaveSameThemes environment visits)

include same

theorem loadOrFallback_eq
    {first second : Visit} (member : first ∈ visits) (other : second ∈ visits)
    (sameId : first.request.themeId = second.request.themeId) :
    Theme.loadOrFallback environment first.tree first.request.themeId =
      Theme.loadOrFallback environment second.tree second.request.themeId := by
  rw [Theme.loadOrFallback, Theme.loadOrFallback, same first member second other sameId]

theorem palette_eq {visit : Visit} (member : visit ∈ visits) :
    (Theme.loadOrFallback environment visit.tree visit.request.themeId).palette =
      paletteAmong environment visits visit.request.themeId := by
  unfold paletteAmong
  split
  · next first found =>
      have sameId := List.find?_some found
      rw [beq_iff_eq] at sameId
      rw [same.loadOrFallback_eq member (List.mem_of_find?_eq_some found)
        sameId.symm, sameId]
  · next missing =>
      have different := List.find?_eq_none.mp missing visit member
      exact absurd (beq_self_eq_true _) different

end HaveSameThemes

namespace AreConsistent

variable
    {environment : Environment} {visits : List Visit}
    (consistent : AreConsistent environment visits)

include consistent

theorem haveSameThemes : HaveSameThemes environment visits :=
  consistent.sameTheme

/-- Requests with the same key are answered the same without a cache. -/
theorem cacheless_eq
    {first second : Visit} (member : first ∈ visits) (other : second ∈ visits)
    (sameKey : first.request.key = second.request.key) :
    first.request.cacheless environment first.tree =
      second.request.cacheless environment second.tree := by
  obtain ⟨samePath, sameTime, sameId, sameLanguage⟩ :=
    Request.fields_eq_of_key_eq (consistent.fits first member) (consistent.fits second other)
      (consistent.noCollision first member second other) sameKey
  rw [Request.cacheless, Request.cacheless, Request.styledWith,
    Request.styledWith, sameLanguage,
    consistent.sameText first member second other samePath sameTime sameId
      sameLanguage,
    consistent.haveSameThemes.loadOrFallback_eq member other sameId]

end AreConsistent

end Visit

namespace System

/-- Whether all processes and entries are as claimed, and every visit so far has shown what its
request is answered without a cache. -/
structure Sound
    (environment : Environment) (directory : Location) (claim : PreviewClaim)
    (paletteOf : String → Palette) (system : System) : Prop where
  processes : ∀ process ∈ system.processes,
    process.Sound environment directory claim paletteOf
  entries : system.tree.EntriesHold directory claim
  visits : ∀ visit ∈ system.visits, visit.outcome.status.IsHighlighted →
    visit.outcome.styled = visit.request.cacheless environment visit.tree

namespace Sound

variable
    {environment : Environment} {directory : Location} {claim : PreviewClaim}
    {paletteOf : String → Palette} {system next : System}
    (sound : system.Sound environment directory claim paletteOf)

include sound

theorem process_of_getElem?
    {index : Nat} {process : Process}
    (present : system.processes[index]? = some process) :
    process.Sound environment directory claim paletteOf :=
  sound.processes process (List.mem_of_getElem? present)

/-- What one process does apart from answering keeps everything as claimed. -/
theorem act
    {index : Nat} {action : Process → FileTree → Option (Process × FileTree)}
    (isAction : Process.IsAction action)
    (acts : system.act index action = some next) :
    next.Sound environment directory claim paletteOf := by
  obtain ⟨process, after, tree, present, done, rfl⟩ := exists_of_act acts
  have seen : (process.sees system.tree).EntriesHold directory claim := sound.entries
  obtain ⟨soundAfter, entries⟩ :=
    (sound.process_of_getElem? present).of_acts seen (isAction.acts done)
  exact ⟨forall_mem_set sound.processes index soundAfter, entries, sound.visits⟩

end Sound

/-- Whether everything is as the visits agree on. -/
def Agrees
    (environment : Environment) (directory : Location) (visits : List Visit)
    (system : System) : Prop :=
  system.Sound environment directory (Visit.Agreed environment visits)
    (Visit.paletteAmong environment visits)

namespace Agrees

variable
    {environment : Environment} {directory : Location} {visits : List Visit}
    {system next : System}
    (consistent : Visit.AreConsistent environment visits)
    (agrees : system.Agrees environment directory visits)

include consistent agrees

/-- An answer to one of the requests keeps everything as they agree on. -/
theorem preview
    {index : Nat} {request : Request} {timing : Timing}
    (steps :
      system.step? environment directory (.preview index request timing) =
        some next)
    (visited : next.visits ⊆ visits) :
    next.Agrees environment directory visits := by
  obtain ⟨visit, tree, _, present, sees, previews, rfl⟩ :=
    exists_of_step_preview steps
  have member : visit ∈ visits := visited List.mem_cons_self
  have permits :
      Visit.Agreed environment visits visit.request.key
        (visit.request.cacheless environment visit.tree) :=
    fun other otherMember sameKey =>
      consistent.cacheless_eq member otherMember sameKey.symm
  have seen :
      visit.tree.EntriesHold directory (Visit.Agreed environment visits) := by
    rw [sees]
    exact agrees.entries
  obtain ⟨soundAfter, entries, hit, highlighted⟩ :=
    (agrees.process_of_getElem? present).preview seen (by rw [sees]; rfl)
      (consistent.haveSameThemes.palette_eq member) permits previews
  refine
    ⟨forall_mem_set agrees.processes index soundAfter, entries,
      fun other among shown => ?_⟩
  rcases List.mem_cons.mp among with rfl | earlier
  · rcases shown with status | status
    · exact highlighted status
    · exact hit status other member rfl
  · exact agrees.visits other earlier shown

/-- Every step keeps everything as the visits agree on. -/
theorem step
    {event : Event} (shares : event.Shares directory system)
    (steps : system.step? environment directory event = some next)
    (visited : next.visits ⊆ visits) :
    next.Agrees environment directory visits := by
  by_cases ofProcess : event.IsOfProcess
  · obtain ⟨index, action, isAction, isAct⟩ := Event.exists_action ofProcess
    rw [isAct] at steps
    exact Sound.act agrees isAction steps
  cases event with
  | launch working number memoryEntries disk =>
      obtain ⟨process, tree, launches, rfl⟩ := exists_of_step_launch steps
      obtain ⟨launched, entries⟩ :=
        Process.Sound.launch shares agrees.entries launches
      refine ⟨fun process member => ?_, entries, agrees.visits⟩
      rcases List.mem_append.mp member with old | new
      · exact agrees.processes process old
      · rw [List.mem_singleton.mp new]
        exact launched
  | relaunch index working number memoryEntries disk =>
      obtain ⟨process, tree, launches, rfl⟩ := exists_of_step_relaunch steps
      obtain ⟨launched, entries⟩ :=
        Process.Sound.launch shares agrees.entries launches
      exact ⟨forall_mem_set agrees.processes index launched, entries, agrees.visits⟩
  | preview index request timing =>
      exact agrees.preview consistent steps visited
  | take | write | settle | flush | clear | forget | sweep =>
      exact absurd trivial ofProcess
  | deleteDirectory =>
      cases steps
      exact
        ⟨agrees.processes,
          agrees.entries.of_loses
            (losesEntries_eraseBelow system.tree directory directory),
          agrees.visits⟩
  | setClock time =>
      cases steps
      exact ⟨agrees.processes, agrees.entries, agrees.visits⟩

end Agrees

/-- In a run over a directory without entries at first, all requests that are found in the cache
or highlighted show what they are answered without a cache. -/
theorem shown_eq_cacheless
    {environment : Environment} {directory : Location} {tree : FileTree}
    {events : List Event} {final : System}
    (shared :
      (start tree).Always environment directory
        (fun system event => event.Shares directory system) events)
    (ran : (start tree).run? environment directory events = some final)
    (noEntries : ∀ key, tree.entryAt? directory key = none)
    (consistent : Visit.AreConsistent environment final.visits)
    {visit : Visit} (member : visit ∈ final.visits)
    (shown : visit.outcome.status.IsHighlighted) :
    visit.outcome.styled.language =
        visit.request.language.getD
          (Language.classify visit.request.path (some visit.request.text)) ∧
      visit.outcome.styled.text = visit.request.text ∧
      Highlight.spans? visit.outcome.styled.language visit.request.text
          (fun _ => false) = some visit.outcome.styled.spans ∧
      visit.outcome.styled.palette =
        (Theme.loadOrFallback environment visit.tree
          visit.request.themeId).palette ∧
      visit.outcome.styled.degraded = false := by
  have begins : (start tree).Agrees environment directory final.visits := by
    refine
      ⟨fun _ none => absurd none List.not_mem_nil, ?_,
        fun _ none => absurd none List.not_mem_nil⟩
    rintro key styled ⟨bytes, entry, _⟩
    rw [start, noEntries key] at entry
    cases entry
  have agrees : final.Agrees environment directory final.visits :=
    holds_of_run
      (fun shares agrees steps visited =>
        Agrees.step consistent agrees shares steps visited)
      shared ran begins
  rw [agrees.visits visit member shown]
  exact
    ⟨rfl, rfl, Highlight.spans?_never_eq_some_spans _ _, rfl, rfl⟩

/-- A request for an empty document. -/
def sampleRequest : Request :=
  ⟨.ofString "a", "", ⟨0⟩, "", some .json, .unlimited, 0⟩

/-- No directories are known. -/
def sampleEnvironment : Environment :=
  ⟨none, none, none, none, none⟩

/-- Where the entries of the sample run are. -/
def sampleDirectory : Path :=
  .ofString "c"

/-- One process highlights a document and tries to write it to disk, does something more, and the
next one is asked for it again. -/
def sampleEvents (directory : Path) (more : List Event) : List Event :=
  let disk : DiskConfig := ⟨directory, 1, 1000, 1⟩
  let timing : Timing := ⟨fun _ => false, true⟩
  [.launch [] 1 1 (some disk), .preview 0 sampleRequest timing, .take 0, .write 0] ++
    more ++ [.relaunch 0 [] 2 1 (some disk), .preview 0 sampleRequest timing]

/-- In the sample run the second answer is found on disk and is that without a cache. -/
theorem shown_eq_cacheless_sample :
    ∃ final visit,
      (start (.empty ⟨0⟩)).run? sampleEnvironment
          (sampleDirectory.locationFrom [])
          (sampleEvents sampleDirectory [.settle 0]) = some final ∧
        visit ∈ final.visits ∧ visit.outcome.status = .cacheHit .disk ∧
        visit.outcome.styled.language = .json ∧
        visit.outcome.styled.text = "" ∧
        Highlight.spans? .json "" (fun _ => false) =
          some visit.outcome.styled.spans ∧
        visit.outcome.styled.palette = Theme.fallback.palette ∧
        visit.outcome.styled.degraded = false := by
  obtain ⟨final, ran, shared, same, visit, member, hit⟩ :
      ∃ final ∈
        (start (.empty ⟨0⟩)).run? sampleEnvironment
          (sampleDirectory.locationFrom [])
          (sampleEvents sampleDirectory [.settle 0]),
        (start (.empty ⟨0⟩)).Always sampleEnvironment
            (sampleDirectory.locationFrom [])
            (fun system event =>
              event.Shares (sampleDirectory.locationFrom []) system)
            (sampleEvents sampleDirectory [.settle 0]) ∧
          (∀ visit ∈ final.visits, visit.request = sampleRequest) ∧
            ∃ visit ∈ final.visits, visit.outcome.status = .cacheHit .disk := by
    decide +kernel
  have noEntries (key : Key) :
      (FileTree.empty ⟨0⟩).entryAt? (sampleDirectory.locationFrom []) key =
        none :=
    entryAt?_eq_none (if_neg (append_fileName_ne_nil _ key))
  have consistent : Visit.AreConsistent sampleEnvironment final.visits := by
    refine ⟨?_, ?_, ?_, ?_⟩
    · intro visit member
      rw [same visit member]
      constructor <;> decide
    · intro first member second other _
      rw [same first member, same second other]
    · intro first member second other _ _ _ _
      rw [same first member, same second other]
    · intro first member second other _
      rw [same first member, same second other]
      rfl
  obtain ⟨language, text, spans, palette, degraded⟩ :=
    shown_eq_cacheless shared ran noEntries consistent member
      (Or.inr (by rw [hit]; rfl))
  rw [language, same visit member] at spans
  rw [same visit member] at language text palette
  exact ⟨final, visit, ran, member, hit, language, text, spans, palette, degraded⟩

end System

end SourcePreview
