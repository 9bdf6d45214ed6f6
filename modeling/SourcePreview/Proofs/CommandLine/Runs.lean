import SourcePreview.Proofs.CommandLine.Showing

/-!
# What runs leave behind

A run may do anything that its words ask for.  If the directory of its disk tier has nothing but
texts that were asked for and no file there can be shown, then this is so afterwards too.
-/

namespace SourcePreview

open FileTree

namespace Program

/-- The end of a run that has shown files, except for a number of them. -/
def concluded (plan : Plan) (paths : List Path) (shown : State × Nat) : Result :=
  let state := if plan.printStats then printStats shown.1 else shown.1
  if shown.2 = 0 then succeed state.tree state.console
  else
    fail state.tree state.console
      (toString shown.2 ++ " of " ++ toString paths.length ++ " files could not be previewed")

theorem runPreview_eq_concluded
    (plan : Plan) (colored : Bool) (state : State) (paths : List Path) :
    runPreview plan colored state paths =
      concluded plan paths (showFiles plan colored 0 state paths) :=
  rfl

@[simp]
theorem stdout_concluded (plan : Plan) (paths : List Path) (shown : State × Nat) :
    (concluded plan paths shown).console.stdout = shown.1.console.stdout := by
  unfold concluded
  dsimp only
  repeat' split
  all_goals rfl

@[simp]
theorem exitCode_concluded (plan : Plan) (paths : List Path) (shown : State × Nat) :
    (concluded plan paths shown).exitCode = 0 ↔ shown.2 = 0 := by
  unfold concluded
  dsimp only
  split
  · next none => exact iff_of_true rfl none
  · next some => exact iff_of_false Nat.one_ne_zero some

/-- Counting the entries of a cache leaves the tree as it is. -/
theorem tree_printStats
    {state : State} {directory : Location} {asked : List Request}
    (faithful : state.previewer.cache.IsFaithful state.tree directory asked) :
    (printStats state).tree = state.tree :=
  Cache.fst_diskStats_of_isReserved faithful.isIn faithful.reserved

theorem tree_concluded
    {shown : State × Nat} {directory : Location} {asked : List Request}
    (faithful : shown.1.previewer.cache.IsFaithful shown.1.tree directory asked)
    (plan : Plan) (paths : List Path) :
    (concluded plan paths shown).tree = shown.1.tree := by
  have counted := tree_printStats faithful
  unfold concluded
  dsimp only
  repeat' split
  all_goals first
    | exact counted
    | rfl

theorem tree_runClear (environment : Environment) (plan : Plan) (state : State) :
    (runClear environment plan state).tree = (state.previewer.cache.clear state.tree).2.1 := by
  unfold runClear
  dsimp only
  split
  all_goals rfl

/-- A run of the program: where it looks for things, the files as they are, whether its output goes
to a terminal, the words of its command line, and the highlighter that works on each file that it
shows, by their numbers. -/
structure Run where
  environment : Environment
  tree : FileTree
  colored : Bool
  words : List Word
  work : Nat → Highlighter

namespace Run

/-- The plan of a run, if it has one. -/
def plan? (run : Run) : Option Plan :=
  Program.plan? run.environment run.tree run.words

/-- A run as far as it has come when the process of its plan is started. -/
def started (run : Run) (plan : Plan) : State :=
  let (previewer, tree) :=
    Previewer.startWith run.environment (logged run.environment run.tree) plan.settings
  ⟨previewer, tree, warned run.environment run.tree⟩

/-- The end of a run. -/
def result (run : Run) : Result :=
  match run.plan? with
  | none => Program.run run.environment run.tree run.colored run.words
  | some plan =>
    match plan.task with
    | .preview paths =>
      concluded plan paths (showEach plan run.colored run.work 0 0 (run.started plan) paths)
    | _ => Program.run run.environment run.tree run.colored run.words

/-- Where all files are given to the highlighter of the rule tables, a run is one of the program. -/
theorem result_eq_run {run : Run} (usual : ∀ index, run.work index = .patterns) :
    run.result = Program.run run.environment run.tree run.colored run.words := by
  unfold result
  split
  · rfl
  · next plan planned =>
      split
      · next paths previews =>
          have same : run.work = fun _ => .patterns := funext usual
          rw [run_eq_runPlan planned, runPlan, previews]
          dsimp only
          rw [runPreview_eq_concluded, same, showEach_eq_showFiles]
          · rfl
          · rfl
      · rfl

/-- Whether the cache is opened for what is to be done. -/
def opensCache {α : Type} : Mode α → Bool
  | .listLanguages | .listThemes => false
  | .preview _ | .clearCache | .stats => true

/-- The disk tier that a run opens, if it opens one. -/
def tier? (run : Run) : Option DiskTier :=
  match run.plan? with
  | none => none
  | some plan =>
    if opensCache plan.task then disk? run.environment run.tree plan else none

theorem tier?_eq_disk?
    {run : Run} {plan : Plan} (planned : run.plan? = some plan)
    (opens : opensCache plan.task = true) :
    run.tier? = disk? run.environment run.tree plan := by
  rw [tier?, planned]
  exact if_pos opens

/-- Whether a run has its disk tier in a directory, if it opens one. -/
def Shares (run : Run) (directory : Location) : Prop :=
  ∀ tier, run.tier? = some tier →
    tier.config.directory.locationFrom run.tree.working = directory

/-- The files as a run finds them that shows files. -/
def found (run : Run) : FileTree :=
  match run.plan? with
  | none => run.tree
  | some plan => (run.started plan).tree

/-- The requests that a run makes. -/
def requests (run : Run) : List Request :=
  match run.plan? with
  | none => []
  | some plan =>
    match plan.task with
    | .preview paths => Program.requests plan run.found paths
    | _ => []

@[simp]
theorem console_started (run : Run) (plan : Plan) :
    (run.started plan).console = warned run.environment run.tree :=
  rfl

variable {run : Run} {directory : Location} {asked : List Request}

/-- A process that is started has nothing in memory, and directories are all that was made for
it. -/
theorem isFaithful_started
    {plan : Plan}
    (located : ∀ tier, disk? run.environment run.tree plan = some tier →
      tier.config.directory.locationFrom run.tree.working = directory)
    (faithful : run.tree.IsFaithful directory asked) :
    (run.started plan).previewer.cache.IsFaithful (run.started plan).tree directory asked ∧
      AddsDirectories run.tree (run.started plan).tree := by
  have logs := addsDirectories_logged run.environment run.tree
  have opens :
      AddsDirectories (logged run.environment run.tree) (run.started plan).tree := by
    apply Cache.addsDirectories_openAt
    intro tier opened
    rw [logs.working, located tier opened]
    exact faithful.reserved.of_adds logs
  have adds := logs.trans opens
  refine ⟨⟨faithful.of_adds adds, ?isIn, ?memory⟩, adds⟩
  case isIn =>
    intro tier opened
    rw [adds.working]
    exact located tier opened
  case memory =>
    have empty :
        (run.started plan).previewer.cache.memory = .empty plan.settings.memoryEntries :=
      Cache.memory_openAt _ _ _
    rw [empty]
    exact MemoryTier.holds_empty _

section Faithful

variable
    (shares : run.Shares directory)
    (faithful : run.tree.IsFaithful directory asked)
    (tell : Request.KeysTell asked)
    (areAsked : ∀ request ∈ run.requests, request ∈ asked)

include shares faithful tell areAsked

/-- A run that shows files changes nothing but entries after it has found them, counts those that
cannot be shown, and prints the others if it prints neither colours nor reports. -/
theorem showEach_spec
    {plan : Plan} {paths : List Path}
    (planned : run.plan? = some plan) (previews : plan.task = .preview paths)
    {after : State} {failures : Nat}
    (shows : showEach plan run.colored run.work 0 0 (run.started plan) paths =
      (after, failures)) :
    AddsDirectories run.tree run.found ∧
      after.previewer.cache.IsFaithful after.tree directory asked ∧
      failures = paths.countP (fun path => (run.found.textAt? path).isNone) ∧
      (plan.json = false → run.colored = false →
        after.console.stdout = paths.flatMap run.found.piped) := by
  have found : run.found = (run.started plan).tree := by
    rw [Run.found, planned]
  rw [Shares, tier?_eq_disk? planned (by rw [previews]; rfl)] at shares
  have askedHere : ∀ request ∈ Program.requests plan (run.started plan).tree paths,
      request ∈ asked := by
    intro request member
    apply areAsked
    rw [requests, planned, found]
    dsimp only
    rw [previews]
    exact member
  obtain ⟨startedFaithful, adds⟩ := isFaithful_started shares faithful
  obtain ⟨kept, _, counted, printed⟩ :=
    Program.showEach_spec startedFaithful tell askedHere (ChangesEntries.refl _) shows
  rw [found]
  refine ⟨adds, kept, ?_, fun noReport isPiped => ?_⟩
  · rw [counted, Nat.zero_add]
  · rw [printed noReport isPiped, console_started, stdout_warned, List.nil_append]

/-- Whatever a run does, the entries have nothing but texts that were asked for, and the directory
stays reserved for them. -/
theorem isFaithful_result : run.result.tree.IsFaithful directory asked := by
  have logs := addsDirectories_logged run.environment run.tree
  rw [result]
  cases planned : run.plan? with
  | none =>
      dsimp only
      rw [tree_run_of_plan?_eq_none planned]
      exact faithful.of_adds logs
  | some plan =>
      have runs := run_eq_runPlan planned run.colored
      rw [runPlan] at runs
      dsimp only
      cases task : plan.task with
      | listLanguages | listThemes =>
          rw [task] at runs
          dsimp only at runs ⊢
          rw [runs]
          exact faithful.of_adds logs
      | clearCache =>
          rw [Shares, tier?_eq_disk? planned (by rw [task]; rfl)] at shares
          have started := (isFaithful_started shares faithful).1
          rw [task] at runs
          dsimp only at runs ⊢
          rw [runs, tree_runClear]
          exact started.clear
      | stats =>
          rw [Shares, tier?_eq_disk? planned (by rw [task]; rfl)] at shares
          have started := (isFaithful_started shares faithful).1
          rw [task] at runs
          dsimp only at runs ⊢
          rw [runs]
          exact (tree_printStats started).symm ▸ started.toIsFaithful
      | preview paths =>
          dsimp only
          cases shows : showEach plan run.colored run.work 0 0 (run.started plan) paths with
          | mk after failures =>
              obtain ⟨_, kept, _, _⟩ :=
                showEach_spec shares faithful tell areAsked planned task shows
              rw [tree_concluded kept]
              exact kept.toIsFaithful

end Faithful

end Run

end Program

end SourcePreview
