import SourcePreview.Proofs.Processes.Transparency

/-!
# Highlighted previews are found again

Let processes share a directory, and let everything be written before the next request is made or
the process ends.  As long as the bounds of the tiers hold, nobody clears them and every preview
can be stored, a preview that was highlighted once is never highlighted again: each later request
of its key finds it, in whatever process and however small its memory is.

What carries this is that a preview of a key is somewhere, on disk or still to be written, and that
no other preview of the key is anywhere.
-/

namespace SourcePreview

open FileTree

namespace Event

/-- Whether everything has been written before a request is made or a process ends, and whether
nobody clears. -/
def Waits (system : System) : Event → Prop
  | .preview .. => ∀ process ∈ system.processes, process.pending = []
  | .relaunch index .. => ∀ process ∈ system.processes[index]?, process.pending = []
  | .clear _ | .deleteDirectory => False
  | _ => True

/-- What is expected before each event: all disk tiers are in one directory and within their
bounds, and nothing is overtaken or cleared. -/
structure IsOrderly
    (directory : Location) (system : System) (event : Event) : Prop where
  shares : event.Shares directory system
  within : ∀ process ∈ system.processes, ∀ disk ∈ process.previewer.cache.disk,
    disk.IsWithinBounds (process.sees system.tree)
  waits : event.Waits system

instance (system : System) : (event : Event) → Decidable (event.Waits system)
  | .preview .. => inferInstanceAs (Decidable (∀ process ∈ _, _ = []))
  | .relaunch .. => inferInstanceAs (Decidable (∀ process ∈ _, _ = []))
  | .clear _ | .deleteDirectory => inferInstanceAs (Decidable False)
  | .launch .. | .take _ | .write _ | .settle _ | .flush _ | .forget _ | .sweep _
  | .setClock _ => inferInstanceAs (Decidable True)

instance (directory : Location) (system : System) (event : Event) :
    Decidable (event.IsOrderly directory system) :=
  decidable_of_iff (_ ∧ _ ∧ _)
    ⟨fun ⟨shares, within, waits⟩ => ⟨shares, within, waits⟩,
      fun ⟨shares, within, waits⟩ => ⟨shares, within, waits⟩⟩

/-- Whether previews can be stored: what is written, and for a request what its highlighted text
would be. -/
def CanStore (environment : Environment) (system : System) : Event → Prop
  | .preview index request _ => ∀ process ∈ system.processes[index]?,
    ∃ disk ∈ process.previewer.cache.disk,
      (disk.store (process.sees system.tree) request.key
        (request.cacheless environment (process.sees system.tree))).2.toBool = true
  | .write index => ∀ process ∈ system.processes[index]?,
    ∀ disk ∈ process.previewer.cache.disk, ∀ job ∈ process.pending.head?,
      (disk.store (process.sees system.tree) job.1 job.2).2.toBool = true
  | _ => True

instance (environment : Environment) (system : System) :
    (event : Event) → Decidable (event.CanStore environment system)
  | .preview .. => inferInstanceAs (Decidable (∀ process ∈ _, ∃ disk ∈ _, _ = true))
  | .write _ =>
    inferInstanceAs (Decidable (∀ process ∈ _, ∀ disk ∈ _, ∀ job ∈ _, _ = true))
  | .launch .. | .relaunch .. | .take _ | .settle _ | .flush _ | .clear _ | .forget _
  | .sweep _ | .deleteDirectory | .setClock _ => inferInstanceAs (Decidable True)

end Event

/-- Whether a later visit to an earlier one's key finds what was highlighted then. -/
def Visit.FindsAgain (later earlier : Visit) : Prop :=
  earlier.outcome.status = .highlighted →
    later.request.key = earlier.request.key →
      later.outcome.status.isCacheHit = true ∧
        later.outcome.styled = earlier.outcome.styled ∧
        later.after.previewer.counters.highlights =
          later.process.previewer.counters.highlights

instance (later earlier : Visit) : Decidable (later.FindsAgain earlier) :=
  inferInstanceAs (Decidable (_ = _ → _ = _ → _ ∧ _ ∧ _))

namespace System

/-- Whether a preview of a key is on disk or still to be written. -/
def Has (directory : Location) (system : System) : PreviewClaim :=
  fun key styled =>
    system.tree.HasEntry directory key styled ∨
      ∃ process ∈ system.processes, (key, styled) ∈ process.pending

end System

/-- Whether a process has in memory only what is claimed, and has to write only what can be read
again. -/
structure Process.Lasts
    (directory : Location) (claim : PreviewClaim) (process : Process) : Prop where
  isIn : process.previewer.cache.IsIn process.working directory
  memory : process.previewer.cache.memory.Holds claim
  wellFormed : ∀ job ∈ process.pending, job.2.isWellFormed = true

namespace System

/-- Whether everything that was highlighted is still there, and nothing else of its key. -/
structure Lasts (directory : Location) (system : System) : Prop where
  processes : ∀ process ∈ system.processes,
    process.Lasts directory (system.Has directory)
  unique : ∀ {key first second},
    system.Has directory key first → system.Has directory key second → first = second
  highlighted : ∀ visit ∈ system.visits,
    visit.outcome.status = .highlighted →
      system.Has directory visit.request.key visit.outcome.styled
  findsAgain : system.visits.Pairwise Visit.FindsAgain

namespace Lasts

variable
    {directory : Location} {system next : System} (lasts : system.Lasts directory)

include lasts

/-- What has all previews that were somewhere, and no second one of a key, still has
everything. -/
theorem of_has
    (grows : ∀ {key styled},
      system.Has directory key styled → next.Has directory key styled)
    (unique : ∀ {key first second},
      next.Has directory key first → next.Has directory key second → first = second)
    (visits : next.visits = system.visits)
    (processes : ∀ process ∈ next.processes,
      process.Lasts directory (next.Has directory)) :
    next.Lasts directory := by
  refine ⟨processes, unique, ?_, ?_⟩
  · rw [visits]
    exact fun visit member status => grows (lasts.highlighted visit member status)
  · rw [visits]
    exact lasts.findsAgain

/-- What has the same previews somewhere, and no others in memory, still has everything. -/
theorem of_has_iff
    (same : ∀ {key styled},
      next.Has directory key styled ↔ system.Has directory key styled)
    (visits : next.visits = system.visits)
    (processes : ∀ process ∈ next.processes,
      process.Lasts directory (system.Has directory)) :
    next.Lasts directory := by
  refine
    lasts.of_has same.mpr
      (fun has hasOther => lasts.unique (same.mp has) (same.mp hasOther)) visits
      fun process member => ?_
  have known := processes process member
  exact
    ⟨known.isIn, fun entry inMemory => same.mpr (known.memory entry inMemory),
      known.wellFormed⟩

/-- One more visit is as expected if what it highlighted is there and what was highlighted before
was found again. -/
theorem visit
    {visit : Visit}
    (highlighted : visit.outcome.status = .highlighted →
      system.Has directory visit.request.key visit.outcome.styled)
    (findsAgain : ∀ earlier ∈ system.visits, visit.FindsAgain earlier) :
    { system with visits := visit :: system.visits }.Lasts directory := by
  refine
    ⟨lasts.processes, lasts.unique, ?_,
      List.pairwise_cons.mpr ⟨findsAgain, lasts.findsAgain⟩⟩
  intro other among status
  rcases List.mem_cons.mp among with rfl | earlier
  · exact highlighted status
  · exact lasts.highlighted other earlier status

end Lasts

end System

theorem Process.lasts_of_launch
    {environment : Environment} {directory : Location} {tree changed : FileTree}
    {working : Location} {number memoryEntries : Nat} {disk : Option DiskConfig}
    {process : Process}
    (shared : ∀ config ∈ disk,
      (DiskTier.openAt { tree with working, process := number, named := 0 } config).2.toBool =
          true →
        config.directory.locationFrom working = directory)
    (launches :
      Process.launch environment tree working number memoryEntries disk =
        (process, changed))
    (claim : PreviewClaim) :
    process.Lasts directory claim := by
  obtain ⟨_, _, _, _, memory, pending, _⟩ := launch_spec launches
  refine ⟨isIn_of_launch shared launches, ?_, by simp [pending]⟩
  rw [memory]
  exact MemoryTier.holds_empty memoryEntries

/-- Whether a process has gone on without losing anything. -/
structure Process.GoesOn
    (directory : Location) (process after : Process) (tree changed : FileTree) :
    Prop where
  isIn : after.previewer.cache.IsIn after.working directory
  memory : ∀ {claim : PreviewClaim},
    process.previewer.cache.memory.Holds claim →
      after.previewer.cache.memory.Holds claim
  pending : ∀ job, job ∈ after.pending ↔ job ∈ process.pending
  entries : KeepsEntries directory tree changed

namespace Process.GoesOn

variable
    {directory : Location} {process after : Process} {tree changed : FileTree}
    (isIn : process.previewer.cache.IsIn process.working directory)

include isIn

theorem take (takes : process.take? tree = some (after, changed)) :
    process.GoesOn directory after tree changed := by
  unfold take? at takes
  split at takes
  · next key styled queue idle waiting =>
      cases takes
      have queued : process.pending = (key, styled) :: queue := by
        rw [Process.pending, idle, waiting]
      refine ⟨isIn, id, fun job => ?_, KeepsEntries.refl tree⟩
      rw [queued]
      exact Iff.rfl
  · cases takes

theorem settle
    (within : ∀ disk ∈ process.previewer.cache.disk, disk.IsWithinBounds tree)
    (settles : process.settle? tree = some (after, changed)) :
    process.GoesOn directory after tree changed := by
  unfold settle? at settles
  split at settles
  · next disk written present =>
      have config := DiskTier.config_settle disk tree
      have keeps := DiskTier.keepsEntries_settle (within disk present) directory
      cases settled : disk.settle tree with
      | mk counted swept =>
      rw [settled] at settles config keeps
      cases settles
      have queued : process.pending = process.queue := by
        rw [Process.pending, written]
      refine ⟨?_, id, fun job => ?_, keeps⟩
      · intro other same
        cases same
        rw [config]
        exact isIn disk present
      · rw [queued]
        exact Iff.rfl
  · cases settles

theorem flush (flushes : process.flush? tree = some (after, changed)) :
    process.GoesOn directory after tree changed := by
  obtain ⟨rfl, rfl⟩ := eq_of_flush flushes
  exact ⟨isIn, id, fun _ => Iff.rfl, KeepsEntries.refl changed⟩

theorem forget (forgets : process.forget? tree = some (after, changed)) :
    process.GoesOn directory after tree changed := by
  cases forgets
  exact
    ⟨isIn, fun _ => MemoryTier.holds_clear _, fun _ => Iff.rfl,
      KeepsEntries.refl tree⟩

theorem sweep
    (within : ∀ disk ∈ process.previewer.cache.disk, disk.IsWithinBounds tree)
    (sweeps : process.sweep? tree = some (after, changed)) :
    process.GoesOn directory after tree changed := by
  obtain ⟨disk, present, same⟩ := Option.map_eq_some_iff.mp sweeps
  obtain ⟨rfl, rfl⟩ := Prod.mk.inj same
  exact
    ⟨isIn, id, fun _ => Iff.rfl,
      DiskTier.keepsEntries_cleanup (within disk present) directory⟩

end Process.GoesOn

/-- How a process answers a request whose entry can be reached: it finds what is claimed, or there
is no entry of the key, and then what it highlights goes into memory. -/
theorem Process.preview_cases
    {directory : Location} {claim : PreviewClaim} {process after : Process}
    {tree changed : FileTree} {request : Request} {timing : Timing}
    {outcome : Outcome} {disk : DiskTier}
    (isIn : process.previewer.cache.IsIn tree.working directory)
    (memory : process.previewer.cache.memory.Holds claim)
    (entries : tree.EntriesHold directory claim)
    (opened : process.previewer.cache.disk = some disk)
    (reaches : disk.Reaches tree directory request.key)
    (previews : process.preview tree request timing = (after, changed, outcome)) :
    after.working = process.working ∧
      after.previewer.cache.IsIn tree.working directory ∧
      (∀ {key styled},
        changed.HasEntry directory key styled ↔
          tree.HasEntry directory key styled) ∧
      ((outcome.status.isCacheHit = true ∧ claim request.key outcome.styled ∧
          after.previewer.cache.memory.Holds claim ∧
          after.previewer.counters.highlights =
            process.previewer.counters.highlights) ∨
        ((∀ styled, ¬tree.HasEntry directory request.key styled) ∧
          ((outcome.status = .highlighted ∧ outcome.styled.isWellFormed = true ∧
              after.previewer.cache.memory =
                process.previewer.cache.memory.set request.key
                  outcome.styled) ∨
            (outcome.status ≠ .highlighted ∧
              after.previewer.cache.memory =
                process.previewer.cache.memory)))) := by
  obtain ⟨previewer, answers, rfl⟩ := exists_of_preview previews
  obtain ⟨_, sameDisk, shown⟩ :=
    Previewer.answer_cases answers (Highlighter.findsPatterns_timed timing) isIn
      memory entries
  refine ⟨rfl, ?_, ?_⟩
  · rw [Cache.IsIn, sameDisk]
    exact isIn
  rcases shown with
    ⟨tier, hit, holdsHere, remembered, _, highlights, keeps⟩ |
      ⟨noHit, looks, _, ended⟩
  · exact
      ⟨keeps.hasEntry_iff,
        Or.inl ⟨by rw [hit]; rfl, holdsHere, remembered, highlights⟩⟩
  · have none := Cache.not_hasEntry_of_lookup_eq_none opened reaches looks
    obtain ⟨_, shape⟩ := Cache.lookup_eq_none isIn looks
    refine ⟨fun {key styled} => ?_, Or.inr ⟨none, ?_⟩⟩
    · rcases shape with rfl | ⟨file, present, undecodable, rfl⟩
      · exact Iff.rfl
      · exact hasEntry_erase_of_undecodable present undecodable
    · rcases ended with ⟨rfl, cache⟩ | ⟨notHighlighted, cache⟩
      · refine
          Or.inl ⟨rfl, Highlight.isWellFormed_highlighted _ _ _, ?_⟩
        rw [cache]
        rfl
      · refine Or.inr ⟨notHighlighted, ?_⟩
        rw [cache]

namespace System.Lasts

variable
    {environment : Environment} {directory : Location} {system next : System}
    (lasts : system.Lasts directory)

include lasts

/-- Everything is still there after a process has gone on without losing anything. -/
theorem act
    {index : Nat} {action : Process → FileTree → Option (Process × FileTree)}
    (goesOn : ∀ {process after changed},
      process ∈ system.processes →
        process.previewer.cache.IsIn process.working directory →
          action process (process.sees system.tree) = some (after, changed) →
            process.GoesOn directory after (process.sees system.tree) changed)
    (acts : system.act index action = some next) :
    next.Lasts directory := by
  obtain ⟨process, after, tree, present, done, rfl⟩ := exists_of_act acts
  have member := List.mem_of_getElem? present
  have known := lasts.processes process member
  have step := goesOn member known.isIn done
  refine
    lasts.of_has_iff
      (or_congr step.entries.hasEntry_iff
        (exists_mem_set_iff fun other here => ?_))
      rfl
      (forall_mem_set lasts.processes index
        ⟨step.isIn, step.memory known.memory,
          fun job waits => known.wellFormed job ((step.pending job).mp waits)⟩)
  rw [present] at here
  cases here
  exact step.pending _

theorem launch
    {working : Location} {number memoryEntries : Nat} {disk : Option DiskConfig}
    (shares :
      Event.Shares directory system (.launch working number memoryEntries disk))
    (steps :
      system.step? environment directory
        (.launch working number memoryEntries disk) = some next) :
    next.Lasts directory := by
  obtain ⟨process, tree, launches, rfl⟩ := exists_of_step_launch steps
  obtain ⟨keeps, _, _, _, _, pending, _⟩ := Process.launch_spec launches
  have launched := Process.lasts_of_launch shares launches (system.Has directory)
  refine
    lasts.of_has_iff (or_congr (keeps directory).hasEntry_iff ?_) rfl
      fun other among => ?_
  · simp [pending]
  · rcases List.mem_append.mp among with old | new
    · exact lasts.processes other old
    · rw [List.mem_singleton.mp new]
      exact launched

theorem relaunch
    {index : Nat} {working : Location} {number memoryEntries : Nat}
    {disk : Option DiskConfig}
    (shares :
      Event.Shares directory system
        (.relaunch index working number memoryEntries disk))
    (waits : ∀ process ∈ system.processes[index]?, process.pending = [])
    (steps :
      system.step? environment directory
        (.relaunch index working number memoryEntries disk) = some next) :
    next.Lasts directory := by
  obtain ⟨process, tree, launches, rfl⟩ := exists_of_step_relaunch steps
  obtain ⟨keeps, _, _, _, _, pending, _⟩ := Process.launch_spec launches
  refine
    lasts.of_has_iff
      (or_congr (keeps directory).hasEntry_iff
        (exists_mem_set_iff fun other here => ?_))
      rfl
      (forall_mem_set lasts.processes index
        (Process.lasts_of_launch shares launches (system.Has directory)))
  rw [pending, waits other here]

/-- What was written is on disk and no longer to be written, and nothing else was there of its
key. -/
theorem written
    {index : Nat} {process after : Process} {tree : FileTree} {disk : DiskTier}
    {key : Key} {styled : StyledText} {queue : List (Key × StyledText)}
    (present : system.processes[index]? = some process)
    (waiting : process.pending = (key, styled) :: queue)
    (located : disk.config.directory.locationFrom process.working = directory)
    (stored :
      disk.store (process.sees system.tree) key styled = (tree, .ok ()))
    (same : after.previewer = process.previewer ∧ after.working = process.working)
    (pending : after.pending = queue) :
    { system with tree, processes := system.processes.set index after }.Lasts
      directory := by
  have member := List.mem_of_getElem? present
  have known := lasts.processes process member
  have inside := mem_set_of_getElem? present after
  have wellFormed : styled.isWellFormed = true :=
    known.wellFormed (key, styled) (by simp [waiting])
  have hasHere : system.Has directory key styled :=
    Or.inr ⟨process, member, by simp [waiting]⟩
  have seenLocated :
      disk.config.directory.locationFrom (process.sees system.tree).working =
        directory := located
  have onDisk {other : Key} {found : StyledText} :
      tree.HasEntry directory other found ↔
        if other = key then styled.isWellFormed = true ∧ found = styled
        else (process.sees system.tree).HasEntry directory other found :=
    DiskTier.hasEntry_iff_of_store seenLocated stored
  refine lasts.of_has_iff ?_ rfl (forall_mem_set lasts.processes index ?_)
  · intro other found
    constructor
    · rintro (entry | ⟨holder, among, waits⟩)
      · rw [onDisk] at entry
        split at entry
        · next here =>
            rw [here, entry.2]
            exact hasHere
        · exact Or.inl entry
      · rcases List.mem_or_eq_of_mem_set among with old | rfl
        · exact Or.inr ⟨holder, old, waits⟩
        · rw [pending] at waits
          exact Or.inr ⟨process, member, by simp [waiting, waits]⟩
    · intro has
      by_cases here : other = key
      · rw [here] at has ⊢
        refine Or.inl (onDisk.mpr ?_)
        rw [if_pos rfl]
        exact ⟨wellFormed, lasts.unique has hasHere⟩
      · rcases has with entry | ⟨holder, among, waits⟩
        · refine Or.inl (onDisk.mpr ?_)
          rw [if_neg here]
          exact entry
        · rcases getElem?_or_mem_set among index after with holds | old
          · rw [present] at holds
            cases holds
            rw [waiting] at waits
            rcases List.mem_cons.mp waits with first | queued
            · exact absurd (congrArg Prod.fst first) here
            · exact Or.inr ⟨after, inside, pending ▸ queued⟩
          · exact Or.inr ⟨holder, old, waits⟩
  · obtain ⟨samePreviewer, sameWorking⟩ := same
    refine ⟨?_, ?_, fun job waits => ?_⟩
    · rw [samePreviewer, sameWorking]
      exact known.isIn
    · rw [samePreviewer]
      exact known.memory
    · rw [pending] at waits
      exact known.wellFormed job (by simp [waiting, waits])

theorem write
    {index : Nat} (stores : Event.CanStore environment system (.write index))
    (acts : system.act index Process.write? = some next) :
    next.Lasts directory := by
  obtain ⟨process, after, tree, present, writes, rfl⟩ := exists_of_act acts
  have member := List.mem_of_getElem? present
  have known := lasts.processes process member
  unfold Process.write? at writes
  split at writes
  · next key styled disk writing opened =>
      have waiting : process.pending = (key, styled) :: process.queue := by
        rw [Process.pending, writing]
      have succeeds :=
        stores process present disk opened (key, styled) (by rw [waiting]; rfl)
      split at writes
      · next stored =>
          cases writes
          exact lasts.written present waiting (known.isIn disk opened) stored ⟨rfl, rfl⟩
            rfl
      · next stored =>
          rw [stored] at succeeds
          cases succeeds
  · cases writes

/-- A request that keeps all entries leaves at most one more preview, the first one of its key. -/
theorem answered
    {index : Nat} {process after : Process} {tree : FileTree}
    (present : system.processes[index]? = some process) (key : Key)
    (styled : StyledText)
    (waits : ∀ process ∈ system.processes, process.pending = [])
    (entries : ∀ {other found},
      tree.HasEntry directory other found ↔
        system.tree.HasEntry directory other found)
    (isIn : after.previewer.cache.IsIn after.working directory)
    (memory :
      after.previewer.cache.memory.Holds fun other found =>
        system.Has directory other found ∨ (other, found) ∈ after.pending)
    (pending : ∀ job ∈ after.pending,
      job = (key, styled) ∧ styled.isWellFormed = true ∧
        ∀ found, ¬system.Has directory key found) :
    { system with tree, processes := system.processes.set index after }.Lasts
      directory := by
  have inside := mem_set_of_getElem? present after
  have has_iff {other : Key} {found : StyledText} :
      Has directory
          { system with tree, processes := system.processes.set index after }
          other found ↔
        system.Has directory other found ∨ (other, found) ∈ after.pending := by
    constructor
    · rintro (entry | ⟨holder, among, waiting⟩)
      · exact Or.inl (Or.inl (entries.mp entry))
      · rcases List.mem_or_eq_of_mem_set among with old | rfl
        · exact Or.inl (Or.inr ⟨holder, old, waiting⟩)
        · exact Or.inr waiting
    · rintro ((entry | ⟨holder, among, waiting⟩) | waiting)
      · exact Or.inl (entries.mpr entry)
      · rw [waits holder among] at waiting
        cases waiting
      · exact Or.inr ⟨after, inside, waiting⟩
  have alone {other : Key} {found : StyledText}
      (waiting : (other, found) ∈ after.pending) :
      other = key ∧ found = styled :=
    Prod.mk.inj (pending _ waiting).1
  refine
    lasts.of_has (fun has => has_iff.mpr (Or.inl has)) ?_ rfl
      (forall_mem_set (fun other among => ?_) index
        ⟨isIn, fun entry inMemory => has_iff.mpr (memory entry inMemory), ?_⟩)
  · intro other first second has hasOther
    rcases has_iff.mp has with old | new <;>
      rcases has_iff.mp hasOther with oldOther | newOther
    · exact lasts.unique old oldOther
    · rw [(alone newOther).1] at old
      exact absurd old ((pending _ newOther).2.2 first)
    · rw [(alone new).1] at oldOther
      exact absurd oldOther ((pending _ new).2.2 second)
    · rw [(alone new).2, (alone newOther).2]
  · have known := lasts.processes other among
    exact
      ⟨known.isIn,
        fun entry inMemory => has_iff.mpr (Or.inl (known.memory entry inMemory)),
        known.wellFormed⟩
  · intro job waiting
    rw [(pending job waiting).1]
    exact (pending job waiting).2.1

/-- A request finds what was highlighted before, or it is the first one of its key that is
highlighted. -/
theorem preview
    {index : Nat} {request : Request} {timing : Timing}
    (waits : ∀ process ∈ system.processes, process.pending = [])
    (stores : Event.CanStore environment system (.preview index request timing))
    (steps :
      system.step? environment directory (.preview index request timing) =
        some next) :
    next.Lasts directory := by
  obtain ⟨visit, tree, rfl, present, sees, previews, rfl⟩ :=
    exists_of_step_preview steps
  have member := List.mem_of_getElem? present
  have known := lasts.processes visit.process member
  have inside := mem_set_of_getElem? present visit.after
  have seenIn : visit.process.previewer.cache.IsIn visit.tree.working directory := by
    rw [sees]
    exact known.isIn
  have seen : visit.tree.EntriesHold directory (system.Has directory) := by
    rw [sees]
    exact fun key styled entry => Or.inl entry
  -- Nothing is still to be written, so what is somewhere is on disk.
  have onDisk {key : Key} {styled : StyledText}
      (has : system.Has directory key styled) :
      visit.tree.HasEntry directory key styled := by
    rw [sees]
    rcases has with entry | ⟨holder, among, waiting⟩
    · exact entry
    · rw [waits holder among] at waiting
      cases waiting
  obtain ⟨disk, opened, succeeds⟩ := stores visit.process present
  rw [← sees] at succeeds
  have reaches : disk.Reaches visit.tree directory visit.request.key :=
    DiskTier.reaches_of_store (seenIn disk opened) succeeds
  obtain ⟨working, isIn, entries, ended⟩ :=
    Process.preview_cases seenIn known.memory seen opened reaches previews
  have pending := Process.pending_of_preview (waits visit.process member) previews
  have isInAfter : visit.after.previewer.cache.IsIn visit.after.working directory := by
    rw [working]
    rw [sees] at isIn
    exact isIn
  have entriesHere {key : Key} {styled : StyledText} :
      tree.HasEntry directory key styled ↔
        system.tree.HasEntry directory key styled := by
    rw [entries, sees]
    exact Iff.rfl
  rcases ended with
    ⟨hit, holdsHere, memory, highlights⟩ |
      ⟨none, ⟨highlighted, wellFormed, memory⟩ | ⟨notHighlighted, memory⟩⟩
  · have notHighlighted : visit.outcome.status ≠ .highlighted := by
      intro status
      rw [status] at hit
      cases hit
    rw [if_neg fun both => notHighlighted both.1] at pending
    refine
      (answered lasts present visit.request.key visit.outcome.styled waits
        entriesHere isInAfter (fun entry inMemory => Or.inl (memory entry inMemory))
        (by simp [pending])).visit
        (fun status => absurd status notHighlighted)
        fun earlier among status sameKey => ⟨hit, ?_, highlights⟩
    have holdsThere := lasts.highlighted earlier among status
    rw [← sameKey] at holdsThere
    exact lasts.unique holdsHere holdsThere
  · rw [if_pos ⟨highlighted, by rw [opened]; rfl⟩] at pending
    have absent (found : StyledText) :
        ¬system.Has directory visit.request.key found :=
      fun has => none found (onDisk has)
    refine
      (answered lasts present visit.request.key visit.outcome.styled waits
        entriesHere isInAfter ?_ (by simp [pending, wellFormed, absent])).visit
        (fun _ => Or.inr ⟨visit.after, inside, by simp [pending]⟩)
        fun earlier among status sameKey => ?_
    · rw [memory]
      exact
        MemoryTier.Holds.set
          (fun entry inMemory => Or.inl (known.memory entry inMemory))
          (Or.inr (by simp [pending]))
    · have holdsThere := lasts.highlighted earlier among status
      rw [← sameKey] at holdsThere
      exact absurd holdsThere (absent _)
  · rw [if_neg fun both => notHighlighted both.1] at pending
    refine
      (answered lasts present visit.request.key visit.outcome.styled waits
        entriesHere isInAfter ?_ (by simp [pending])).visit
        (fun status => absurd status notHighlighted)
        fun earlier among status sameKey => ?_
    · rw [memory]
      exact fun entry inMemory => Or.inl (known.memory entry inMemory)
    · have holdsThere := lasts.highlighted earlier among status
      rw [← sameKey] at holdsThere
      exact absurd (onDisk holdsThere) (none _)

/-- Every step leaves everything there. -/
theorem step
    {event : Event} (orderly : event.IsOrderly directory system)
    (stores : event.CanStore environment system)
    (steps : system.step? environment directory event = some next) :
    next.Lasts directory := by
  cases event with
  | launch working number memoryEntries disk =>
      exact lasts.launch orderly.shares steps
  | relaunch index working number memoryEntries disk =>
      exact lasts.relaunch orderly.shares orderly.waits steps
  | preview index request timing =>
      exact lasts.preview orderly.waits stores steps
  | take index => exact lasts.act (fun _ isIn takes => .take isIn takes) steps
  | write index => exact lasts.write stores steps
  | settle index =>
      exact
        lasts.act
          (fun member isIn settles =>
            .settle isIn (orderly.within _ member) settles)
          steps
  | flush index => exact lasts.act (fun _ isIn flushes => .flush isIn flushes) steps
  | clear index => exact orderly.waits.elim
  | forget index => exact lasts.act (fun _ isIn forgets => .forget isIn forgets) steps
  | sweep index =>
      exact
        lasts.act
          (fun member isIn sweeps => .sweep isIn (orderly.within _ member) sweeps)
          steps
  | deleteDirectory => exact orderly.waits.elim
  | setClock time =>
      cases steps
      exact lasts.of_has_iff Iff.rfl rfl lasts.processes

end System.Lasts

namespace System

/-- In an orderly run in which previews can be stored, every request finds what was highlighted
before for its key, without highlighting anything. -/
theorem pairwise_findsAgain
    {environment : Environment} {directory : Location} {tree : FileTree}
    {events : List Event} {final : System}
    (expected :
      (start tree).Always environment directory
        (fun system event =>
          event.IsOrderly directory system ∧ event.CanStore environment system)
        events)
    (ran : (start tree).run? environment directory events = some final) :
    final.visits.Pairwise Visit.FindsAgain := by
  have begins : (start tree).Lasts directory := by
    refine
      ⟨fun _ none => absurd none List.not_mem_nil, ?_,
        fun _ none => absurd none List.not_mem_nil, List.Pairwise.nil⟩
    rintro key first second (entry | ⟨_, none, _⟩) (otherEntry | ⟨_, none, _⟩)
    · exact entry.unique otherEntry
    all_goals exact absurd none List.not_mem_nil
  have lasts : final.Lasts directory :=
    holds_of_run
      (fun holds lasts steps _ => Lasts.step lasts holds.1 holds.2 steps)
      expected ran begins
  exact lasts.findsAgain

/-- Two visits for the sample request are visits for one key. -/
theorem exists_eq_pair_of_statuses
    {visits : List Visit} {last first : Status}
    (same : ∀ visit ∈ visits, visit.request = sampleRequest)
    (statuses : visits.map (·.outcome.status) = [last, first]) :
    ∃ later earlier,
      visits = [later, earlier] ∧ later.request.key = earlier.request.key ∧
        later.outcome.status = last ∧ earlier.outcome.status = first := by
  obtain ⟨later, others, rfl, lastStatus, rest⟩ := List.map_eq_cons_iff.mp statuses
  obtain ⟨earlier, none, rfl, firstStatus, empty⟩ := List.map_eq_cons_iff.mp rest
  obtain rfl := List.map_eq_nil_iff.mp empty
  refine ⟨later, earlier, rfl, ?_, lastStatus, firstStatus⟩
  rw [same later (by simp), same earlier (by simp)]

/-- In the sample run the second request finds what the first one highlighted. -/
theorem pairwise_findsAgain_sample :
    ∃ final later earlier,
      (start (.empty ⟨0⟩)).run? sampleEnvironment
          (sampleDirectory.locationFrom [])
          (sampleEvents sampleDirectory [.settle 0]) = some final ∧
        final.visits = [later, earlier] ∧
        earlier.outcome.status = .highlighted ∧
        later.outcome.status.isCacheHit = true ∧
        later.outcome.styled = earlier.outcome.styled ∧
        later.after.previewer.counters.highlights =
          later.process.previewer.counters.highlights := by
  obtain ⟨final, ran, expected, same, statuses⟩ :
      ∃ final ∈
        (start (.empty ⟨0⟩)).run? sampleEnvironment
          (sampleDirectory.locationFrom [])
          (sampleEvents sampleDirectory [.settle 0]),
        (start (.empty ⟨0⟩)).Always sampleEnvironment
            (sampleDirectory.locationFrom [])
            (fun system event =>
              event.IsOrderly (sampleDirectory.locationFrom []) system ∧
                event.CanStore sampleEnvironment system)
            (sampleEvents sampleDirectory [.settle 0]) ∧
          (∀ visit ∈ final.visits, visit.request = sampleRequest) ∧
            final.visits.map (·.outcome.status) =
              [.cacheHit .disk, .highlighted] := by
    decide +kernel
  obtain ⟨later, earlier, visits, sameKey, hit, highlighted⟩ :=
    exists_eq_pair_of_statuses same statuses
  have pairwise := pairwise_findsAgain expected ran
  rw [visits] at pairwise
  obtain ⟨_, styled, highlights⟩ :=
    (List.pairwise_cons.mp pairwise).1 earlier (by simp) highlighted sameKey
  exact
    ⟨final, later, earlier, ran, visits, highlighted, by rw [hit]; rfl, styled, highlights⟩

/-- A path of sixteen names that is not too long for a directory, but for its entries. -/
def longDirectory : Path :=
  ⟨(List.replicate 16 (Path.slash :: List.replicate 252 0x64)).flatten⟩

/-- It is not enough that a run is orderly and that all disk tiers could be opened: where the path
of the directory is so long that no entry can be stored, the same text is highlighted twice. -/
theorem highlights_twice_in_longDirectory :
    ∃ final ∈
      (start (.empty ⟨0⟩)).run? sampleEnvironment
        (longDirectory.locationFrom []) (sampleEvents longDirectory []),
      (start (.empty ⟨0⟩)).Always sampleEnvironment
          (longDirectory.locationFrom [])
          (fun system event =>
            event.IsOrderly (longDirectory.locationFrom []) system)
          (sampleEvents longDirectory []) ∧
        (∀ visit ∈ final.visits,
          visit.process.previewer.cache.disk.isSome = true) ∧
        ¬final.visits.Pairwise Visit.FindsAgain := by
  obtain ⟨final, ran, orderly, opened, same, statuses⟩ :
      ∃ final ∈
        (start (.empty ⟨0⟩)).run? sampleEnvironment
          (longDirectory.locationFrom []) (sampleEvents longDirectory []),
        (start (.empty ⟨0⟩)).Always sampleEnvironment
            (longDirectory.locationFrom [])
            (fun system event =>
              event.IsOrderly (longDirectory.locationFrom []) system)
            (sampleEvents longDirectory []) ∧
          (∀ visit ∈ final.visits,
            visit.process.previewer.cache.disk.isSome = true) ∧
          (∀ visit ∈ final.visits, visit.request = sampleRequest) ∧
            final.visits.map (·.outcome.status) = [.highlighted, .highlighted] := by
    decide +kernel
  refine ⟨final, ran, orderly, opened, fun pairwise => ?_⟩
  obtain ⟨later, earlier, visits, sameKey, again, highlighted⟩ :=
    exists_eq_pair_of_statuses same statuses
  rw [visits] at pairwise
  obtain ⟨hit, -, -⟩ :=
    (List.pairwise_cons.mp pairwise).1 earlier (by simp) highlighted sameKey
  rw [again] at hit
  cases hit

end System

end SourcePreview
