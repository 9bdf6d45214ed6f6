import SourcePreview.Proofs.Cache.Tiers
import SourcePreview.Proofs.Processes.System

/-!
# What processes do between their answers

Apart from answering, a process lets its writer go on, sweeps its disk tier and empties its cache.
None of this brings anything into memory or into the queue, and onto disk nothing comes but what
was waiting to be written.  Nor does any of it depend on what a process notes for its answers,
which are the palettes that it has loaded, or on what it counts.
-/

namespace SourcePreview

open FileTree

namespace Process

/-- A process without its highlighter and without what it has noted and counted. -/
def bare (process : Process) : Process :=
  { process with
    previewer :=
      { process.previewer with
        highlighter := .patterns, palettes := [], counters := .zero } }

/-- What has become of a process and its tree when it has done something that is no answer. -/
structure Acts (process after : Process) (tree changed : FileTree) : Prop where
  working : after.working = process.working
  environment : after.previewer.environment = process.previewer.environment
  palettes : after.previewer.palettes = process.previewer.palettes
  config : after.previewer.cache.disk.map (·.config) =
    process.previewer.cache.disk.map (·.config)
  memory : after.previewer.cache.memory.entries ⊆
    process.previewer.cache.memory.entries
  pending : after.pending ⊆ process.pending
  /-- An entry is old, or it was written from the queue. -/
  entries : ∀ {location key bytes},
    changed.entryAt? location key = some bytes →
      tree.entryAt? location key = some bytes ∨
        ∃ disk, process.previewer.cache.disk = some disk ∧
          location = disk.config.directory.locationFrom tree.working ∧
            ∃ styled, (key, styled) ∈ process.pending ∧
              bytes = Entry.encode styled

theorem Acts.exists_disk
    {process after : Process} {tree changed : FileTree}
    (acts : process.Acts after tree changed) {disk : DiskTier}
    (present : after.previewer.cache.disk = some disk) :
    ∃ old, process.previewer.cache.disk = some old ∧ old.config = disk.config := by
  have config := acts.config
  rw [present] at config
  exact Option.map_eq_some_iff.mp config.symm

/-- What is common to everything that a process may do apart from answering. -/
structure IsAction (action : Process → FileTree → Option (Process × FileTree)) : Prop where
  acts : ∀ {process after tree changed},
    action process tree = some (after, changed) → process.Acts after tree changed
  bare : ∀ process tree,
    action process.bare tree =
      (action process tree).map fun (after, changed) => (after.bare, changed)

theorem isAction_take : IsAction take? := by
  refine ⟨fun {process after tree changed} takes => ?_, fun process tree => ?_⟩
  · unfold take? at takes
    split at takes
    · next key styled queue idle waiting =>
        cases takes
        have queued : process.pending = (key, styled) :: queue := by
          rw [pending, idle, waiting]
        refine ⟨rfl, rfl, rfl, rfl, List.Subset.refl _, ?_, Or.inl⟩
        rw [queued]
        exact List.Subset.refl _
    · cases takes
  · unfold take? bare
    dsimp only
    split <;> rfl

theorem isAction_write : IsAction write? := by
  refine ⟨fun {process after tree changed} writes => ?_, fun process tree => ?_⟩
  · unfold write? at writes
    split at writes
    · next key styled disk writing opened =>
        have waiting : process.pending = (key, styled) :: process.queue := by
          rw [pending, writing]
        have fewer : process.queue ⊆ process.pending := by
          rw [waiting]
          exact List.subset_cons_self _ _
        split at writes
        · next stores =>
            cases writes
            refine ⟨rfl, rfl, rfl, rfl, List.Subset.refl _, fewer, ?_⟩
            intro location other bytes entry
            rw [(DiskTier.entryAt?_of_store rfl stores).2 location other] at entry
            split at entry
            · next here =>
                obtain ⟨rfl, rfl⟩ := here
                cases entry
                exact
                  Or.inr
                    ⟨disk, opened, rfl, styled, waiting ▸ List.mem_cons_self, rfl⟩
            · exact Or.inl entry
        · next stores =>
            cases writes
            have keeps := DiskTier.keepsEntries_of_store_eq_error stores
            exact
              ⟨rfl, rfl, rfl, rfl, List.Subset.refl _, fewer, fun {location _ _} entry =>
                Or.inl ((keeps location).loses.entryAt?_eq_some entry)⟩
    · cases writes
  · unfold write? bare
    dsimp only
    split
    · split <;> rfl
    · rfl

theorem isAction_settle : IsAction settle? := by
  refine ⟨fun {process after tree changed} settles => ?_, fun process tree => ?_⟩
  · unfold settle? at settles
    split at settles
    · next disk written opened =>
        have config := DiskTier.config_settle disk tree
        have loses := DiskTier.losesEntries_settle disk tree
        generalize disk.settle tree = counts at settles config loses
        obtain ⟨counted, swept⟩ := counts
        cases settles
        have waiting : process.pending = process.queue := by
          rw [pending, written]
        refine
          ⟨rfl, rfl, rfl, ?_, List.Subset.refl _, ?_,
            fun {location _ _} entry => Or.inl ((loses location).entryAt?_eq_some entry)⟩
        · rw [opened]
          exact congrArg some config
        · rw [waiting]
          exact List.Subset.refl _
    · cases settles
  · unfold settle? bare
    dsimp only
    split <;> rfl

theorem isAction_flush : IsAction flush? := by
  refine ⟨fun {process after tree changed} flushes => ?_, fun process tree => ?_⟩
  · obtain ⟨rfl, rfl⟩ := eq_of_flush flushes
    exact
      ⟨rfl, rfl, rfl, rfl, List.Subset.refl _, List.Subset.refl _, Or.inl⟩
  · unfold flush? bare
    dsimp only
    split <;> rfl

theorem isAction_clear : IsAction clear? := by
  refine ⟨fun {process after tree changed} clears => ?_, fun process tree => ?_⟩
  · obtain ⟨⟨flushed, unchanged⟩, flushes, same⟩ := Option.bind_eq_some_iff.mp clears
    obtain ⟨rfl, rfl⟩ := eq_of_flush flushes
    have cleared := Cache.clear_spec flushed.previewer.cache unchanged
    dsimp only at same
    generalize flushed.previewer.cache.clear unchanged = clearing at same cleared
    obtain ⟨emptied, lost, count⟩ := clearing
    obtain ⟨rfl, rfl⟩ := Prod.mk.inj (Option.some.inj same)
    obtain rfl := (cleared []).1
    exact
      ⟨rfl, rfl, rfl, rfl, List.nil_subset _, List.Subset.refl _,
        fun {location _ _} entry =>
          Or.inl ((cleared location).2.entryAt?_eq_some entry)⟩
  · unfold clear? flush? bare
    dsimp only
    split <;> rfl

theorem isAction_forget : IsAction forget? := by
  refine ⟨fun {process after tree changed} forgets => ?_, fun process tree => rfl⟩
  cases forgets
  exact ⟨rfl, rfl, rfl, rfl, List.nil_subset _, List.Subset.refl _, Or.inl⟩

theorem isAction_sweep : IsAction sweep? := by
  refine ⟨fun {process after tree changed} sweeps => ?_, fun process tree => ?_⟩
  · obtain ⟨disk, _, same⟩ := Option.map_eq_some_iff.mp sweeps
    obtain ⟨rfl, rfl⟩ := Prod.mk.inj same
    exact
      ⟨rfl, rfl, rfl, rfl, List.Subset.refl _, List.Subset.refl _,
        fun {location _ _} entry =>
          Or.inl ((DiskTier.losesEntries_cleanup disk tree location).entryAt?_eq_some entry)⟩
  · unfold sweep? bare
    rw [Option.map_map]
    rfl

end Process

namespace Event

/-- Whether an event is something that one process does apart from answering. -/
def IsOfProcess : Event → Prop
  | .take _ | .write _ | .settle _ | .flush _ | .clear _ | .forget _ | .sweep _ => True
  | .launch .. | .relaunch .. | .preview .. | .deleteDirectory | .setClock _ => False

theorem exists_action {event : Event} (isOfProcess : event.IsOfProcess) :
    ∃ index action,
      Process.IsAction action ∧
        ∀ environment directory (system : System),
          system.step? environment directory event = system.act index action := by
  cases event with
  | take index => exact ⟨index, _, Process.isAction_take, fun _ _ _ => rfl⟩
  | write index => exact ⟨index, _, Process.isAction_write, fun _ _ _ => rfl⟩
  | settle index => exact ⟨index, _, Process.isAction_settle, fun _ _ _ => rfl⟩
  | flush index => exact ⟨index, _, Process.isAction_flush, fun _ _ _ => rfl⟩
  | clear index => exact ⟨index, _, Process.isAction_clear, fun _ _ _ => rfl⟩
  | forget index => exact ⟨index, _, Process.isAction_forget, fun _ _ _ => rfl⟩
  | sweep index => exact ⟨index, _, Process.isAction_sweep, fun _ _ _ => rfl⟩
  | launch | relaunch | preview | deleteDirectory | setClock => exact isOfProcess.elim

end Event

/-- A new process has nothing in memory and nothing to write, it has noted nothing, and its disk
tier is the one that was wanted. -/
theorem Process.launch_spec
    {environment : Environment} {tree changed : FileTree} {working : Location}
    {number memoryEntries : Nat} {disk : Option DiskConfig} {process : Process}
    (launches :
      Process.launch environment tree working number memoryEntries disk =
        (process, changed)) :
    (∀ location,
        KeepsEntries location { tree with working, process := number, named := 0 } changed) ∧
      process.working = working ∧
      process.previewer.environment = environment ∧
      process.previewer.palettes = [] ∧
      process.previewer.cache.memory = .empty memoryEntries ∧
      process.pending = [] ∧
      ∀ opened, process.previewer.cache.disk = some opened →
        ∃ config,
          disk = some config ∧
            (DiskTier.openAt { tree with working, process := number, named := 0 } config).2.toBool =
              true ∧
            opened.config = config := by
  rw [Process.launch_eq] at launches
  obtain ⟨rfl, rfl⟩ := Prod.mk.inj launches
  exact
    ⟨Cache.keepsEntries_openAt _ memoryEntries disk, rfl, rfl, rfl,
      Cache.memory_openAt _ memoryEntries disk, rfl, fun _ => Cache.exists_config_of_openAt⟩

end SourcePreview
