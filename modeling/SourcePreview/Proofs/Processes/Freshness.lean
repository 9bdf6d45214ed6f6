import SourcePreview.Proofs.Processes.Transparency
import Mathlib.Logic.Relation

/-!
# Where the palettes of answers come from

While a process makes previews, the themes of the user may be written, changed and removed.  A
process loads a theme only once, and an answer from the cache has the palette that it was made with.
So an answer need not have the palette that its theme stands for now, but it always has one that the
theme stood for when the process was asked for it, now or before, or that came from the directory of
entries.

Three stores hold palettes: the palettes that the process has noted, its memory with the queue of
previews that are still to be written, and the entries on disk.  What is kept is where everything in
each of them was first made.
-/

namespace SourcePreview

open FileTree

theorem Cache.exists_isIn (cache : Cache) (working : Location) :
    ∃ directory, cache.IsIn working directory := by
  cases opened : cache.disk with
  | none =>
      refine ⟨[], fun disk present => ?_⟩
      rw [opened] at present
      cases present
  | some disk =>
      refine ⟨disk.config.directory.locationFrom working, fun other present => ?_⟩
      rw [opened] at present
      cases present
      rfl

/-- A cache that is looked through in vain stays as it is, and at most loses a file that is no
theme. -/
theorem Cache.spec_of_lookup_eq_none
    {cache used : Cache} {tree after : FileTree} {key : Key}
    (misses : cache.lookup tree key = (used, after, none)) :
    used = cache ∧ (∀ directory, LosesEntries directory tree after) ∧
      ∀ environment id, Theme.load environment after id = Theme.load environment tree id := by
  obtain ⟨directory, isIn⟩ := cache.exists_isIn tree.working
  obtain ⟨same, rfl | ⟨file, present, _, rfl⟩⟩ := Cache.lookup_eq_none isIn misses
  · exact ⟨same, fun _ => LosesEntries.refl after, fun _ _ => rfl⟩
  · exact
      ⟨same, fun other => losesEntries_erase tree other _,
        fun environment id => Theme.load_erase_entry present environment id⟩

namespace Visit

/-- The palette that the theme of a request stands for when the request is made. -/
def themePalette (environment : Environment) (visit : Visit) : Palette :=
  (Theme.loadOrFallback environment visit.tree visit.request.themeId).palette

/-- The palette that a theme has if it is loaded for a request.  It is not looked for if the request
is found in the cache. -/
def loads? (environment : Environment) (id : String) (visit : Visit) : Option Palette :=
  if visit.request.themeId = id ∧ visit.outcome.status.isCacheHit = false then
    (Theme.load environment visit.tree id).toOption.map Theme.palette
  else none

/-- The palette of a theme when it was loaded for the first time; the latest request comes first. -/
def firstLoaded? (environment : Environment) (id : String) (visits : List Visit) :
    Option Palette :=
  visits.reverse.findSome? (loads? environment id)

theorem firstLoaded?_cons
    (environment : Environment) (id : String) (visit : Visit) (earlier : List Visit) :
    firstLoaded? environment id (visit :: earlier) =
      (firstLoaded? environment id earlier).or (visit.loads? environment id) := by
  rw [firstLoaded?, firstLoaded?, List.reverse_cons, List.findSome?_append,
    List.findSome?_singleton]

/-- A theme that was loaded stood for its palette then. -/
theorem themePalette_of_loads?
    {environment : Environment} {id : String} {visit : Visit} {palette : Palette}
    (loads : visit.loads? environment id = some palette) :
    visit.request.themeId = id ∧ visit.themePalette environment = palette := by
  unfold loads? at loads
  split at loads
  · next asked =>
      obtain ⟨theme, loaded, same⟩ := Option.map_eq_some_iff.mp loads
      refine ⟨asked.1, ?_⟩
      rw [themePalette, Theme.loadOrFallback, asked.1]
      cases load : Theme.load environment visit.tree id with
      | error failure =>
          rw [load] at loaded
          cases loaded
      | ok found =>
          rw [load] at loaded
          cases loaded
          exact same
  · cases loads

theorem exists_of_firstLoaded?
    {environment : Environment} {id : String} {visits : List Visit} {palette : Palette}
    (loaded : firstLoaded? environment id visits = some palette) :
    ∃ visit ∈ visits,
      visit.request.themeId = id ∧ visit.themePalette environment = palette := by
  obtain ⟨visit, member, loads⟩ := List.exists_of_findSome?_eq_some loaded
  exact ⟨visit, List.mem_reverse.mp member, themePalette_of_loads? loads⟩

/-- A preview that the highlighter made for one of some requests, or of which a claim holds. -/
def MadeBy (visits : List Visit) (claim : PreviewClaim) : PreviewClaim :=
  fun key styled =>
    (∃ visit ∈ visits,
      visit.request.key = key ∧ visit.outcome.status = .highlighted ∧
        visit.outcome.styled = styled) ∨
      claim key styled

/-- More requests have made more previews. -/
theorem MadeBy.cons
    {visits : List Visit} {claim : PreviewClaim} {key : Key} {styled : StyledText}
    (made : MadeBy visits claim key styled) (visit : Visit) :
    MadeBy (visit :: visits) claim key styled := by
  rcases made with ⟨source, member, isSource⟩ | old
  · exact Or.inl ⟨source, List.mem_cons_of_mem visit member, isSource⟩
  · exact Or.inr old

/-- Whether it is known where the palette of an answer comes from: an answer that is not from the
cache has the palette of its theme when that was first loaded, or the one that it stands for now,
and an answer from the cache was made before. -/
structure IsTraced
    (environment : Environment) (claim : PreviewClaim) (visit : Visit) (earlier : List Visit) :
    Prop where
  made : visit.outcome.status.isCacheHit = false →
    visit.outcome.styled.palette =
      (firstLoaded? environment visit.request.themeId earlier).getD
        (visit.themePalette environment)
  found : ∀ tier, visit.outcome.status = .cacheHit tier →
    MadeBy earlier claim visit.request.key visit.outcome.styled

/-- An answer that is not from the cache has a palette that its theme has stood for. -/
theorem IsTraced.exists_themePalette_eq
    {environment : Environment} {claim : PreviewClaim} {visit : Visit} {earlier : List Visit}
    (traced : visit.IsTraced environment claim earlier)
    (notHit : visit.outcome.status.isCacheHit = false) :
    ∃ source ∈ visit :: earlier,
      source.request.themeId = visit.request.themeId ∧
        source.themePalette environment = visit.outcome.styled.palette := by
  have made := traced.made notHit
  cases loaded : firstLoaded? environment visit.request.themeId earlier with
  | none =>
      rw [loaded] at made
      exact ⟨visit, List.mem_cons_self, rfl, made.symm⟩
  | some palette =>
      rw [loaded] at made
      obtain ⟨source, member, sameId, stood⟩ := exists_of_firstLoaded? loaded
      exact ⟨source, List.mem_cons_of_mem _ member, sameId, stood.trans made.symm⟩

/-- Whether keys tell the requests of some visits apart. -/
structure HaveDistinctKeys (visits : List Visit) : Prop where
  /-- Sizes and times are those of a real machine. -/
  fits : ∀ visit ∈ visits,
    Key.Fits visit.request.path visit.request.modified visit.request.themeId
  /-- No two different materials of keys have the same digest. -/
  noCollision : ∀ first ∈ visits, ∀ second ∈ visits,
    Sha256.digest first.request.material = Sha256.digest second.request.material →
      first.request.material = second.request.material

theorem HaveDistinctKeys.themeId_eq
    {visits : List Visit} (distinct : HaveDistinctKeys visits)
    {first second : Visit} (member : first ∈ visits) (other : second ∈ visits)
    (sameKey : first.request.key = second.request.key) :
    first.request.themeId = second.request.themeId := by
  obtain ⟨_, _, sameId, _⟩ :=
    Request.fields_eq_of_key_eq (distinct.fits first member) (distinct.fits second other)
      (distinct.noCollision first member second other) sameKey
  exact sameId

end Visit

/-- A process with its tree and what it was asked so far, the latest request first. -/
structure Watch where
  process : Process
  tree : FileTree
  visits : List Visit

namespace Watch

/-- A new process that was asked nothing yet. -/
def start
    (environment : Environment) (tree : FileTree) (working : Location)
    (number memoryEntries : Nat) (disk : Option DiskConfig) : Watch :=
  let (process, opened) :=
    Process.launch environment tree working number memoryEntries disk
  ⟨process, opened, []⟩

/-- The process answers a request while some highlighter works on its text. -/
def ask (watch : Watch) (request : Request) (highlighter : Highlighter) : Watch :=
  let seen := watch.process.sees watch.tree
  let (after, tree, outcome) := watch.process.respond seen request highlighter
  ⟨after, tree, ⟨request, watch.process, seen, after, outcome⟩ :: watch.visits⟩

/-- What may happen next: the process answers a request or goes on with its writer and its cache,
or files are changed from outside, but no entries. -/
inductive Step : Watch → Watch → Prop where
  | ask (watch : Watch) (request : Request) (highlighter : Highlighter) :
      Step watch (watch.ask request highlighter)
  | act {watch : Watch} {action : Process → FileTree → Option (Process × FileTree)}
      {process : Process} {tree : FileTree}
      (isAction : Process.IsAction action)
      (acts : action watch.process (watch.process.sees watch.tree) = some (process, tree)) :
      Step watch { watch with process, tree }
  | change {watch : Watch} {tree : FileTree}
      (keeps : ∀ directory, KeepsEntries directory watch.tree tree) :
      Step watch { watch with tree }

/-- The file of a theme is written, if it can be. -/
def writeTheme (watch : Watch) (themes : Path) (id : String) (bytes : Bytes) : Watch :=
  match watch.tree.writeFile (themes.child (id ++ ".yaml")) bytes with
  | .ok tree => { watch with tree }
  | .error _ => watch

/-- The file of a theme is removed, if it can be. -/
def removeTheme (watch : Watch) (themes : Path) (id : String) : Watch :=
  match watch.tree.removeFile (themes.child (id ++ ".yaml")) with
  | .ok tree => { watch with tree }
  | .error _ => watch

/-- A theme may be written, whether or not there was one. -/
theorem Step.writeTheme (watch : Watch) (themes : Path) (id : String) (bytes : Bytes) :
    Step watch (watch.writeTheme themes id bytes) := by
  unfold Watch.writeTheme
  split
  · next writes => exact .change (Theme.keepsEntries_writeFile writes)
  · exact .change fun _ => KeepsEntries.refl watch.tree

/-- A theme may be removed. -/
theorem Step.removeTheme (watch : Watch) (themes : Path) (id : String) :
    Step watch (watch.removeTheme themes id) := by
  unfold Watch.removeTheme
  split
  · next removes => exact .change (Theme.keepsEntries_removeFile removes)
  · exact .change fun _ => KeepsEntries.refl watch.tree

/-- Whether it is known where everything comes from that a process may answer.  The claim is about
the entries that were there at first. -/
structure Traces (environment : Environment) (claim : PreviewClaim) (watch : Watch) : Prop where
  sameEnvironment : watch.process.previewer.environment = environment
  palettes : ∀ id,
    watch.process.previewer.palettes.lookup id =
      Visit.firstLoaded? environment id watch.visits
  memory : watch.process.previewer.cache.memory.Holds (Visit.MadeBy watch.visits claim)
  pending : ∀ job ∈ watch.process.pending, Visit.MadeBy watch.visits claim job.1 job.2
  onDisk : ∀ disk, watch.process.previewer.cache.disk = some disk →
    watch.tree.EntriesHold (disk.config.directory.locationFrom watch.process.working)
      (Visit.MadeBy watch.visits claim)
  visits : ∀ later visit earlier, watch.visits = later ++ visit :: earlier →
    visit.IsTraced environment claim earlier

/-- The entries that a disk tier finds when it is opened. -/
def Found
    (tree : FileTree) (working : Location) (disk : Option DiskConfig) : PreviewClaim :=
  fun key styled =>
    ∃ config ∈ disk, tree.HasEntry (config.directory.locationFrom working) key styled

/-- A new process knows nothing but the entries that are there. -/
theorem traces_start
    (environment : Environment) (tree : FileTree) (working : Location)
    (number memoryEntries : Nat) (disk : Option DiskConfig) :
    (start environment tree working number memoryEntries disk).Traces environment
      (Found tree working disk) := by
  cases launches : Process.launch environment tree working number memoryEntries disk with
  | mk process opened =>
  obtain ⟨keeps, rfl, rfl, palettes, memory, pending, opens⟩ := Process.launch_spec launches
  rw [start, launches]
  refine ⟨rfl, ?palettes, ?memory, ?pending, ?onDisk, ?visits⟩
  case palettes =>
    intro id
    rw [palettes]
    rfl
  case memory =>
    rw [memory]
    exact MemoryTier.holds_empty memoryEntries
  case pending =>
    intro job waits
    rw [pending] at waits
    cases waits
  case onDisk =>
    intro disk present key styled has
    obtain ⟨config, wanted, _, rfl⟩ := opens disk present
    exact Or.inr ⟨disk.config, wanted, (keeps _).hasEntry_iff.mp has⟩
  case visits =>
    intro later visit earlier split
    cases later <;> cases split

namespace Traces

variable
    {environment : Environment} {claim : PreviewClaim} {watch : Watch}
    (traces : watch.Traces environment claim)

include traces

/-- Files that are no entries may change. -/
theorem change
    {tree : FileTree} (keeps : ∀ directory, KeepsEntries directory watch.tree tree) :
    Traces environment claim { watch with tree } := by
  refine { traces with onDisk := ?_ }
  intro disk present
  exact (traces.onDisk disk present).of_loses (keeps _).loses

/-- The process may go on with its writer and its cache. -/
theorem act
    {process : Process} {tree : FileTree}
    (acts : watch.process.Acts process (watch.process.sees watch.tree) tree) :
    Traces environment claim { watch with process, tree } := by
  refine ⟨?environment, ?palettes, ?memory, ?pending, ?onDisk, traces.visits⟩
  case environment => exact acts.environment.trans traces.sameEnvironment
  case palettes =>
    intro id
    rw [acts.palettes]
    exact traces.palettes id
  case memory =>
    intro entry member
    exact traces.memory entry (acts.memory member)
  case pending =>
    intro job waits
    exact traces.pending job (acts.pending waits)
  case onDisk =>
    rintro disk present key styled ⟨bytes, entry, decodes⟩
    obtain ⟨old, isOld, same⟩ := acts.exists_disk present
    rw [← same, acts.working] at entry
    rcases acts.entries entry with kept | ⟨_, _, _, written, waits, rfl⟩
    · exact traces.onDisk old isOld key styled ⟨bytes, kept, decodes⟩
    · obtain ⟨_, rfl⟩ := Entry.decode_encode_eq_ok_iff.mp decodes
      exact traces.pending (key, styled) waits

/-- A preview that the process answers or notes for later is known to be made before, or it is made
by the request. -/
theorem pending_of_respond
    {request : Request} {highlighter : Highlighter} {after : Process} {tree : FileTree}
    {outcome : Outcome}
    (responds :
      watch.process.respond (watch.process.sees watch.tree) request highlighter =
        (after, tree, outcome)) :
    ∀ job ∈ after.pending,
      Visit.MadeBy
        (⟨request, watch.process, watch.process.sees watch.tree, after, outcome⟩ ::
          watch.visits)
        claim job.1 job.2 := by
  obtain ⟨previewer, _, rfl⟩ := Process.exists_of_respond responds
  intro job waits
  rcases Process.mem_pending.mp waits with writing | queued
  · exact (traces.pending job (Process.mem_pending.mpr (Or.inl writing))).cons _
  · rcases Process.mem_queueAfter queued with old | ⟨highlighted, rfl⟩
    · exact (traces.pending job (Process.mem_pending.mpr (Or.inr old))).cons _
    · exact Or.inl ⟨_, List.mem_cons_self, rfl, highlighted, rfl⟩

/-- What is known about the earlier requests stays, and one comes to it. -/
theorem visits_cons {visit : Visit} (traced : visit.IsTraced environment claim watch.visits) :
    ∀ later other earlier, visit :: watch.visits = later ++ other :: earlier →
      other.IsTraced environment claim earlier := by
  intro later other earlier split
  cases later with
  | nil =>
      cases split
      exact traced
  | cons latest later =>
      rw [List.cons_append, List.cons.injEq] at split
      exact traces.visits later other earlier split.2

section Answers

variable
    {request : Request} {after : Process} {tree : FileTree} {outcome : Outcome}
    (working : after.working = watch.process.working)
    (sameEnvironment :
      after.previewer.environment = watch.process.previewer.environment)
    (pending : ∀ job ∈ after.pending,
      Visit.MadeBy
        (⟨request, watch.process, watch.process.sees watch.tree, after, outcome⟩ ::
          watch.visits)
        claim job.1 job.2)

include working sameEnvironment pending

/-- The process may answer a request from the cache. -/
theorem found
    {tier : Tier} (hit : outcome.status = .cacheHit tier)
    (palettes : after.previewer.palettes = watch.process.previewer.palettes)
    (looks :
      watch.process.previewer.cache.lookup (watch.process.sees watch.tree) request.key =
        (after.previewer.cache, tree, some (outcome.styled, tier))) :
    Traces environment claim
      ⟨after, tree,
        ⟨request, watch.process, watch.process.sees watch.tree, after, outcome⟩ ::
          watch.visits⟩ := by
  obtain ⟨sameDisk, memory, keeps, madeBefore⟩ :=
    Cache.lookup_eq_some traces.memory traces.onDisk looks
  refine
    ⟨sameEnvironment.trans traces.sameEnvironment, ?palettes, ?memory, pending, ?onDisk,
      traces.visits_cons ⟨?made, ?found⟩⟩
  case palettes =>
    intro id
    rw [Visit.firstLoaded?_cons, Visit.loads?, hit, palettes, traces.palettes]
    simp [Status.isCacheHit]
  case memory =>
    intro entry member
    exact (memory entry member).cons _
  case onDisk =>
    intro disk present key styled has
    rw [sameDisk] at present
    rw [working] at has
    exact (traces.onDisk disk present key styled ((keeps _).hasEntry_iff.mp has)).cons _
  case made =>
    intro noHit
    rw [hit] at noHit
    cases noHit
  case found =>
    intro _ _
    exact madeBefore

/-- The process may answer a request that it looks for in vain. -/
theorem computed
    {highlighter : Highlighter}
    (loads : ∀ id,
      Theme.load environment tree id =
        Theme.load environment (watch.process.sees watch.tree) id)
    (loses : ∀ directory, LosesEntries directory (watch.process.sees watch.tree) tree)
    (made :
      outcome =
        request.uncached highlighter
          (watch.process.previewer.palette tree request.themeId).2)
    (palettes :
      after.previewer.palettes =
        (watch.process.previewer.palette tree request.themeId).1.palettes)
    (kept : after.previewer.cache = watch.process.previewer.cache.keep request outcome) :
    Traces environment claim
      ⟨after, tree,
        ⟨request, watch.process, watch.process.sees watch.tree, after, outcome⟩ ::
          watch.visits⟩ := by
  have noHit : outcome.status.isCacheHit = false := by rw [made, Request.isCacheHit_uncached]
  refine
    ⟨sameEnvironment.trans traces.sameEnvironment, ?palettes, ?memory, pending, ?onDisk,
      traces.visits_cons ⟨?made, ?found⟩⟩
  case palettes =>
    intro id
    rw [Visit.firstLoaded?_cons, Visit.loads?, palettes, Previewer.lookup_palette_fst,
      traces.palettes, traces.sameEnvironment, loads]
    simp [noHit]
  case memory =>
    dsimp only
    rw [kept, Cache.keep]
    split
    · next highlighted =>
        refine MemoryTier.Holds.set (fun entry member => ?_) ?_
        · exact (traces.memory entry member).cons _
        · exact Or.inl ⟨_, List.mem_cons_self, rfl, highlighted, rfl⟩
    · intro entry member
      exact (traces.memory entry member).cons _
  case onDisk =>
    intro disk present key styled has
    dsimp only at present has
    rw [kept, Cache.disk_keep] at present
    rw [working] at has
    exact (traces.onDisk disk present key styled ((loses _).hasEntry has)).cons _
  case made =>
    intro _
    dsimp only
    rw [made, Request.palette_uncached, Previewer.palette_snd, traces.palettes,
      traces.sameEnvironment, Visit.themePalette, Theme.loadOrFallback, loads]
    rfl
  case found =>
    intro tier hit
    dsimp only at hit
    rw [hit] at noHit
    cases noHit

end Answers

/-- The process may answer a request. -/
theorem ask (request : Request) (highlighter : Highlighter) :
    (watch.ask request highlighter).Traces environment claim := by
  cases responds :
      watch.process.respond (watch.process.sees watch.tree) request highlighter with
  | mk after others =>
  obtain ⟨tree, outcome⟩ := others
  have pending := traces.pending_of_respond responds
  rw [Watch.ask, responds]
  obtain ⟨previewer, answers, rfl⟩ := Process.exists_of_respond responds
  obtain ⟨same, ⟨tier, hit, looks, palettes⟩ | ⟨cache, looks, made, palettes, kept⟩⟩ :=
    Previewer.answer_spec answers
  · exact traces.found rfl same pending hit palettes looks
  · obtain ⟨rfl, loses, loads⟩ := Cache.spec_of_lookup_eq_none looks
    obtain ⟨samePalette, samePalettes⟩ :=
      @Previewer.palette_congr { watch.process.previewer with highlighter }
        watch.process.previewer rfl rfl tree request.themeId
    rw [samePalette] at made
    rw [samePalettes] at palettes
    exact traces.computed rfl same pending (loads environment) loses made palettes kept

/-- Whatever happens next, everything is still known. -/
theorem step {next : Watch} (steps : Step watch next) : next.Traces environment claim := by
  cases steps with
  | ask request highlighter => exact traces.ask request highlighter
  | act isAction acts => exact traces.act (isAction.acts acts)
  | change keeps => exact traces.change keeps

/-- Whatever happens, everything is still known. -/
theorem run {final : Watch} (runs : Relation.ReflTransGen Step watch final) :
    final.Traces environment claim := by
  induction runs with
  | refl => exact traces
  | tail _ steps ih => exact ih.step steps

end Traces

/-- An answer that is not from the cache has the palette that its theme was first loaded with, or
else the one that it stands for now.  An answer from the cache was made for an earlier request with
the same key, or was on disk at first.  So if keys tell requests apart and nothing was on disk,
every answer has a palette that its theme stood for when the process was asked for it, now or
before, and it has the palette of now if the theme has stood for the same one at all those times. -/
theorem palette_of_run
    {environment : Environment} {tree : FileTree} {working : Location}
    {number memoryEntries : Nat} {disk : Option DiskConfig} {final : Watch}
    (runs :
      Relation.ReflTransGen Step (start environment tree working number memoryEntries disk)
        final)
    {later earlier : List Visit} {visit : Visit}
    (split : final.visits = later ++ visit :: earlier) :
    (visit.outcome.status.isCacheHit = false →
      visit.outcome.styled.palette =
        (Visit.firstLoaded? environment visit.request.themeId earlier).getD
          (visit.themePalette environment)) ∧
    (∀ tier, visit.outcome.status = .cacheHit tier →
      (∃ source ∈ earlier,
        source.request.key = visit.request.key ∧ source.outcome.status = .highlighted ∧
          source.outcome.styled = visit.outcome.styled) ∨
        ∃ config ∈ disk,
          tree.HasEntry (config.directory.locationFrom working) visit.request.key
            visit.outcome.styled) ∧
    (Visit.HaveDistinctKeys (visit :: earlier) →
      (∀ config ∈ disk,
        tree.entryAt? (config.directory.locationFrom working) visit.request.key = none) →
        (∃ source ∈ visit :: earlier,
          source.request.themeId = visit.request.themeId ∧
            source.themePalette environment = visit.outcome.styled.palette) ∧
          ((∀ source ∈ earlier,
            source.request.themeId = visit.request.themeId →
              source.themePalette environment = visit.themePalette environment) →
            visit.outcome.styled.palette = visit.themePalette environment)) := by
  have traces := (traces_start environment tree working number memoryEntries disk).run runs
  have traced := traces.visits later visit earlier split
  refine ⟨traced.made, traced.found, fun distinct noEntries => ?_⟩
  have stood :
      ∃ source ∈ visit :: earlier,
        source.request.themeId = visit.request.themeId ∧
          source.themePalette environment = visit.outcome.styled.palette := by
    cases status : visit.outcome.status with
    | cacheHit tier =>
        rcases traced.found tier status with
          ⟨source, member, sameKey, highlighted, same⟩ | ⟨config, wanted, bytes, entry, _⟩
        · -- The palette is that of the request which the answer was made for.
          have sameId : source.request.themeId = visit.request.themeId :=
            distinct.themeId_eq (List.mem_cons_of_mem _ member) List.mem_cons_self sameKey
          obtain ⟨between, before, shape⟩ := List.append_of_mem member
          have parts : final.visits = (later ++ visit :: between) ++ source :: before := by
            rw [split, shape, List.append_assoc]
            rfl
          have notHit : source.outcome.status.isCacheHit = false := by
            rw [highlighted]
            rfl
          obtain ⟨stood, isStood, stoodId, palette⟩ :=
            (traces.visits _ source before parts).exists_themePalette_eq notHit
          refine ⟨stood, List.mem_cons_of_mem _ ?_, stoodId.trans sameId, ?_⟩
          · rw [shape]
            exact List.mem_append_right between isStood
          · rw [palette, same]
        · rw [noEntries config wanted] at entry
          cases entry
    | highlighted | unsupported | degraded _ =>
        have notHit : visit.outcome.status.isCacheHit = false := by
          rw [status]
          rfl
        exact traced.exists_themePalette_eq notHit
  refine ⟨stood, fun unchanged => ?_⟩
  obtain ⟨source, member, sameId, palette⟩ := stood
  rw [← palette]
  rcases List.mem_cons.mp member with rfl | old
  · rfl
  · exact unchanged source old sameId

/-- Directories of the user below the root. -/
def sampleEnvironment : Environment :=
  ⟨none, none, some (.ofString "/g"), none, none⟩

/-- The directory for themes. -/
def sampleThemes : Path :=
  .ofString "/g/glance/themes"

/-- A directory for themes in which there is none. -/
def sampleTree : FileTree :=
  ((FileTree.empty ⟨0⟩).createDirectories sampleThemes).1

/-- A request for a text that is not highlighted at all, in a shipped theme. -/
def sampleRequest : Request :=
  ⟨.ofString "/work/a.txt", "a", ⟨0⟩, "light", none, .unlimited, 10⟩

/-- The process before it is asked anything. -/
def sampleStart : Watch :=
  start sampleEnvironment sampleTree [] 1 8 none

/-- The process is asked once. -/
def sampleAsked : Watch :=
  sampleStart.ask sampleRequest .patterns

/-- An empty file takes the place of the shipped theme, so that another theme stands in for it. -/
def sampleWritten : Watch :=
  sampleAsked.writeTheme sampleThemes "light" []

/-- The process is asked again. -/
def sampleFinal : Watch :=
  sampleWritten.ask sampleRequest .patterns

theorem runs_sampleFinal : Relation.ReflTransGen Step sampleStart sampleFinal := by
  have asks : Step sampleStart sampleAsked := .ask sampleStart sampleRequest .patterns
  have writes : Step sampleAsked sampleWritten :=
    .writeTheme sampleAsked sampleThemes "light" []
  have asksAgain : Step sampleWritten sampleFinal :=
    .ask sampleWritten sampleRequest .patterns
  exact ((Relation.ReflTransGen.single asks).tail writes).tail asksAgain

/-- The second answer has the palette that the theme was loaded with for the first one. -/
theorem palette_of_run_sample :
    ∃ first second,
      sampleFinal.visits = [second, first] ∧
        second.outcome.status = .unsupported ∧
        second.outcome.styled.palette = first.themePalette sampleEnvironment := by
  obtain ⟨first, second, visits, status, loaded⟩ :
      ∃ first second,
        sampleFinal.visits = [second, first] ∧ second.outcome.status = .unsupported ∧
          Visit.firstLoaded? sampleEnvironment second.request.themeId [first] =
            some (first.themePalette sampleEnvironment) :=
    ⟨_, _, rfl, by decide +kernel⟩
  have split : sampleFinal.visits = [] ++ second :: [first] := visits
  obtain ⟨made, -, -⟩ := palette_of_run runs_sampleFinal split
  refine ⟨first, second, visits, status, ?_⟩
  rw [made (by rw [status]; rfl), loaded]
  rfl

/-- A theme that was loaded once keeps its palette, although its file has changed since. -/
theorem keeps_palette_of_written_theme :
    ¬∀ (environment : Environment) (tree : FileTree) (working : Location)
        (number memoryEntries : Nat) (disk : Option DiskConfig) (final : Watch),
      Relation.ReflTransGen Step
          (start environment tree working number memoryEntries disk) final →
        ∀ visit ∈ final.visits,
          visit.outcome.styled.palette = visit.themePalette environment := by
  intro always
  have fresh := always sampleEnvironment sampleTree [] 1 8 none sampleFinal runs_sampleFinal
  have stale :
      ∃ visit ∈ sampleFinal.visits,
        visit.outcome.styled.palette ≠ visit.themePalette sampleEnvironment := by
    decide +kernel
  obtain ⟨visit, member, different⟩ := stale
  exact different (fresh visit member)

end Watch

end SourcePreview
