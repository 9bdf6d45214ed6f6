import SourcePreview.CommandLine.Program
import SourcePreview.Proofs.Cache.Tiers

/-!
# Plans of runs

A run first makes the directory for logs and then carries out the plan that its words make on top of
the settings.  Until then directories are all that it has added to the files.
-/

namespace SourcePreview

open FileTree

theorem Environment.addsDirectories_ensureLogs (environment : Environment) (tree : FileTree) :
    AddsDirectories tree (environment.ensureLogs tree).1 := by
  unfold ensureLogs
  split
  · exact AddsDirectories.refl tree
  · next directory _ =>
      have made := addsDirectories_createDirectories tree directory
      split
      · next changed _ ensures =>
          obtain rfl : (tree.createDirectories directory).1 = changed :=
            congrArg Prod.fst ensures
          exact made.trans (addsDirectories_createDirectories _ _)
      · next changed _ ensures =>
          obtain rfl : (tree.createDirectories directory).1 = changed :=
            congrArg Prod.fst ensures
          exact made

namespace Program

/-- The tree in which the plan of a run is carried out: a process has begun, and the directory for
logs is made, if it can be. -/
def logged (environment : Environment) (tree : FileTree) : FileTree :=
  (prepareLogs environment tree.begun).1

/-- What a run has printed before its plan is carried out. -/
def warned (environment : Environment) (tree : FileTree) : Console :=
  (prepareLogs environment tree.begun).2

theorem addsDirectories_logged (environment : Environment) (tree : FileTree) :
    AddsDirectories tree (logged environment tree) := by
  have adds :=
    (AddsDirectories.begun tree).trans (environment.addsDirectories_ensureLogs tree.begun)
  unfold logged prepareLogs
  split
  all_goals
    next ensures =>
      rw [ensures] at adds
      exact adds

@[simp]
theorem stdout_warned (environment : Environment) (tree : FileTree) :
    (warned environment tree).stdout = [] := by
  unfold warned prepareLogs
  split <;> rfl

/-- The plan that words make on top of the settings of the user, if they make one. -/
def plan? (environment : Environment) (tree : FileTree) (words : List Word) : Option Plan :=
  match Arguments.ofWords words with
  | .error _ => none
  | .ok arguments =>
    (Plan.make arguments (Settings.load environment (logged environment tree))).toOption

/-- A run with a plan carries out the plan. -/
theorem run_eq_runPlan
    {environment : Environment} {tree : FileTree} {words : List Word} {plan : Plan}
    (planned : plan? environment tree words = some plan) (colored : Bool) :
    run environment tree colored words =
      runPlan environment (logged environment tree) (warned environment tree) colored plan := by
  unfold plan? at planned
  split at planned
  · cases planned
  · next arguments spelled =>
      cases made : Plan.make arguments (Settings.load environment (logged environment tree)) with
      | error problem =>
          rw [made] at planned
          cases planned
      | ok found =>
          rw [made] at planned
          cases planned
          rw [run, spelled]
          dsimp only
          rw [logged] at made
          rw [made]
          rfl

/-- A run without a plan leaves the files as they are once the directory for logs is made. -/
theorem tree_run_of_plan?_eq_none
    {environment : Environment} {tree : FileTree} {words : List Word}
    (unplanned : plan? environment tree words = none) (colored : Bool) :
    (run environment tree colored words).tree = logged environment tree := by
  unfold plan? at unplanned
  split at unplanned
  · next problem refused =>
      rw [run, refused]
      cases problem <;> rfl
  · next arguments spelled =>
      cases made : Plan.make arguments (Settings.load environment (logged environment tree)) with
      | error problem =>
          rw [run, spelled]
          dsimp only
          rw [logged] at made
          rw [made]
          rfl
      | ok plan =>
          rw [made] at unplanned
          cases unplanned

/-- The disk tier that a run of a plan opens, if it opens one. -/
def disk? (environment : Environment) (tree : FileTree) (plan : Plan) : Option DiskTier :=
  (Previewer.startWith environment (logged environment tree) plan.settings).1.cache.disk

/-- A disk tier that is opened is in the directory that the settings tell. -/
theorem cacheDirectory?_of_disk?
    {environment : Environment} {tree : FileTree} {plan : Plan} {disk : DiskTier}
    (opened : disk? environment tree plan = some disk) :
    plan.settings.cacheDirectory? environment = some disk.config.directory := by
  obtain ⟨config, wanted, _, rfl⟩ := Cache.exists_config_of_openAt opened
  unfold Previewer.diskConfig? at wanted
  split at wanted
  · obtain ⟨directory, found, same⟩ := Option.map_eq_some_iff.mp wanted
    rw [found, ← same]
  · cases wanted

end Program

end SourcePreview
