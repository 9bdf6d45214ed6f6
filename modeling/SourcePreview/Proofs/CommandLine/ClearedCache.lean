import SourcePreview.Proofs.Cache.Clearing
import SourcePreview.Proofs.Cache.FiniteMap
import SourcePreview.Proofs.CommandLine.Plans

/-!
# Runs that clear the cache

A run that is to clear the cache ends well only if its disk tier, where it has one, is empty
afterwards.  The directory that it reports is told by the settings, and a run whose disk tier is
switched off or cannot be opened reports it too, although it leaves all entries there.
-/

namespace SourcePreview

namespace FileTree

/-- Whether no file with the name of a key is in a directory. -/
def HasNoEntries (tree : FileTree) (directory : Location) : Prop :=
  ∀ name file,
    Key.isName name = true →
      tree.node? (directory ++ [Text.encode name.toList]) ≠ some (.file file)

theorem hasNoEntries_iff {tree : FileTree} {directory : Location} :
    tree.HasNoEntries directory ↔ ∀ key, tree.entryAt? directory key = none := by
  constructor
  · intro without key
    rw [Option.eq_none_iff_forall_ne_some]
    intro bytes entry
    obtain ⟨file, present, _⟩ := entryAt?_eq_some_iff.mp entry
    exact without key.name file key.isName_name present
  · intro without name file isName present
    obtain ⟨key, _, rfl⟩ := Key.exists_ofName?_of_isName isName
    have entry := entryAt?_eq_some_iff.mpr ⟨file, present, rfl⟩
    rw [without key] at entry
    cases entry

end FileTree

open FileTree

/-- Clearing that succeeds leaves no entry in the directory of the disk tier, and without a disk
tier it changes no file. -/
theorem Cache.clear_eq_ok
    {cache cleared : Cache} {tree after : FileTree}
    (clears : cache.clear tree = (cleared, after, .ok ())) :
    (∀ disk, cache.disk = some disk →
      after.HasNoEntries (disk.config.directory.locationFrom tree.working)) ∧
      (cache.disk = none → after = tree) := by
  unfold clear at clears
  split at clears
  · next absent =>
      cases clears
      refine ⟨fun disk present => ?_, fun _ => rfl⟩
      rw [absent] at present
      cases present
  · next disk present =>
      refine ⟨fun same isDisk => ?_, fun absent => ?_⟩
      · rw [present] at isDisk
        cases isDisk
        cases removes : disk.clear tree with
        | mk changed result =>
            rw [removes] at clears
            cases result with
            | error failure => cases clears
            | ok count =>
                cases clears
                rw [hasNoEntries_iff]
                exact DiskTier.entryAt?_of_clear removes
      · rw [present] at absent
        cases absent

namespace Program

/-- A run that is to clear the cache and ends well reports the directory that the settings tell.
If it has opened a disk tier, the tier is in this directory and no file with the name of a key is
left there.  If it has opened none, all entries are left, in every directory. -/
theorem cleared_of_exitCode_eq_zero
    {environment : Environment} {tree : FileTree} {colored : Bool} {words : List Word}
    {plan : Plan}
    (planned : plan? environment tree words = some plan) (clears : plan.task = .clearCache)
    (succeeds : (run environment tree colored words).exitCode = 0) :
    (∀ directory, plan.settings.cacheDirectory? environment = some directory →
      (run environment tree colored words).console.stderr =
        (warned environment tree).stderr ++
          ("Cleared highlight cache at " ++ directory.display) ++ "\n") ∧
    (∀ disk, disk? environment tree plan = some disk →
      plan.settings.cacheDirectory? environment = some disk.config.directory ∧
        (run environment tree colored words).tree.HasNoEntries
          (disk.config.directory.locationFrom tree.working)) ∧
    (disk? environment tree plan = none → ∀ directory key,
      (run environment tree colored words).tree.entryAt? directory key =
        tree.entryAt? directory key) := by
  have adds := addsDirectories_logged environment tree
  have opened : ∀ directory,
      KeepsEntries directory (logged environment tree)
        (Previewer.startWith environment (logged environment tree) plan.settings).2 :=
    Cache.keepsEntries_openAt _ _ _
  have runs := run_eq_runPlan planned colored
  rw [runPlan, clears] at runs
  dsimp only at runs
  rw [runs] at succeeds ⊢
  unfold runClear at succeeds ⊢
  cases emptied :
      (Previewer.startWith environment (logged environment tree) plan.settings).1.cache.clear
        (Previewer.startWith environment (logged environment tree) plan.settings).2 with
  | mk cleared rest =>
      obtain ⟨after, result⟩ := rest
      rw [emptied] at succeeds
      cases result with
      | error failure => cases succeeds
      | ok _ =>
          obtain ⟨withDisk, withoutDisk⟩ := Cache.clear_eq_ok emptied
          dsimp only [succeed]
          refine ⟨?reported, ?emptied, ?kept⟩
          case reported =>
            intro directory told
            rw [told]
            rfl
          case emptied =>
            intro disk present
            have none := withDisk disk present
            rw [(opened []).working, adds.working] at none
            exact ⟨cacheDirectory?_of_disk? present, none⟩
          case kept =>
            intro absent directory key
            rw [withoutDisk absent, (opened directory).entryAt?,
              (adds.keepsEntries directory).entryAt?]

/-- Directories of the user below the root. -/
def sampleEnvironment : Environment :=
  ⟨none, none, some (.ofString "/g"), none, some (.ofString "/c")⟩

/-- A directory for previews in which there is one entry. -/
def sampleTree : FileTree :=
  ((FileTree.empty ⟨0⟩).put [Text.encode "c".toList] .directory).put
    [Text.encode "c".toList, (DiskTier.Session.sampleKey 0).fileName]
    (.file ⟨Entry.encode (DiskTier.Session.sampleStyled "1"), 0, ⟨0⟩⟩)

/-- A run with a disk tier leaves no entry. -/
theorem cleared_of_exitCode_eq_zero_sample :
    (sampleTree.entryAt? [Text.encode "c".toList] (DiskTier.Session.sampleKey 0)).isSome ∧
      (run sampleEnvironment sampleTree false ["--clear-cache"]).console.stderr =
        "Cleared highlight cache at /c\n" ∧
      (run sampleEnvironment sampleTree false ["--clear-cache"]).tree.HasNoEntries
        [Text.encode "c".toList] := by
  obtain ⟨plan, planned, clears, disk, opened, located⟩ :
      ∃ plan, plan? sampleEnvironment sampleTree ["--clear-cache"] = some plan ∧
        plan.task = .clearCache ∧
        ∃ disk, disk? sampleEnvironment sampleTree plan = some disk ∧
          disk.config.directory = .ofString "/c" := by
    refine ⟨_, rfl, rfl, ?_⟩
    rw [← Option.map_eq_some_iff]
    decide +kernel
  have succeeds :
      (run sampleEnvironment sampleTree false ["--clear-cache"]).exitCode = 0 := by
    decide +kernel
  obtain ⟨reported, emptied, -⟩ := cleared_of_exitCode_eq_zero planned clears succeeds
  obtain ⟨told, without⟩ := emptied disk opened
  refine ⟨by decide +kernel, ?_, ?_⟩
  · rw [reported _ told, located]
    decide +kernel
  · rw [located] at without
    exact without

/-- A run whose disk tier is switched off ends well and reports the directory for previews, but the
entry is still there. -/
theorem keeps_entry_without_disk :
    ¬∀ (environment : Environment) (tree : FileTree) (colored : Bool) (words : List Word)
        (plan : Plan) (directory : Path),
      plan? environment tree words = some plan → plan.task = .clearCache →
        plan.settings.cacheDirectory? environment = some directory →
          (run environment tree colored words).exitCode = 0 →
            (run environment tree colored words).console.stderr =
              "Cleared highlight cache at " ++ directory.display ++ "\n" →
              (run environment tree colored words).tree.HasNoEntries
                (directory.locationFrom tree.working) := by
  intro clearsAlways
  have none :=
    clearsAlways sampleEnvironment sampleTree false ["--clear-cache", "--no-cache"] _
      (.ofString "/c") rfl rfl rfl (by decide +kernel) (by decide +kernel)
  have gone := hasNoEntries_iff.mp none (DiskTier.Session.sampleKey 0)
  have present :
      ((run sampleEnvironment sampleTree false
            ["--clear-cache", "--no-cache"]).tree.entryAt?
          ((Path.ofString "/c").locationFrom sampleTree.working)
          (DiskTier.Session.sampleKey 0)).isSome := by
    decide +kernel
  rw [gone] at present
  cases present

end Program

end SourcePreview
