import SourcePreview.Preview.Previewer
import SourcePreview.Proofs.Highlight.Run

/-!
# Processes that share a directory of entries

Any number of processes make previews over one file tree.  A request that was highlighted leaves
its preview in the queue of the process, from where a writer takes one after the other to disk
while requests go on.  An event is one such step of one process, or something that happens to the
tree from outside, and a run is any list of events each of which is possible when it comes.
-/

namespace SourcePreview

/-- What the writer of a process is doing: it has taken a preview out of the queue and has still to
write it, or it has written one and has still to count it. -/
inductive Writer where
  | idle
  | writing (key : Key) (styled : StyledText)
  | written

/-- A process that makes previews. -/
structure Process where
  previewer : Previewer
  working : Location
  number : Nat
  /-- How many temporary files it has named so far. -/
  named : Nat
  /-- What waits to be written, the first one first. -/
  queue : List (Key × StyledText)
  writer : Writer

namespace Process

def queueDepth : Nat := 64

/-- What is still to be written: the preview that the writer has taken, and then the queue. -/
def pending (process : Process) : List (Key × StyledText) :=
  match process.writer with
  | .writing key styled => (key, styled) :: process.queue
  | _ => process.queue

theorem mem_pending {process : Process} {job : Key × StyledText} :
    job ∈ process.pending ↔
      process.writer = .writing job.1 job.2 ∨ job ∈ process.queue := by
  obtain ⟨key, styled⟩ := job
  unfold pending
  split
  · next taken takenStyled writing =>
      rw [writing, List.mem_cons, Prod.mk.injEq, Writer.writing.injEq]
      simp only [eq_comm]
  · next idle =>
      constructor
      · exact Or.inr
      · rintro (writing | queued)
        · exact absurd writing (idle key styled)
        · exact queued

theorem pending_of_idle
    {process : Process}
    (idle : ∀ key styled, process.writer ≠ .writing key styled) :
    process.pending = process.queue := by
  unfold pending
  split
  · next writing => exact absurd writing (idle _ _)
  · rfl

theorem idle_of_pending_eq_nil
    {process : Process} (waits : process.pending = []) :
    (∀ key styled, process.writer ≠ .writing key styled) ∧ process.queue = [] := by
  unfold pending at waits
  split at waits
  · cases waits
  · next idle => exact ⟨idle, waits⟩

/-- The tree as a process sees it. -/
def sees (process : Process) (tree : FileTree) : FileTree :=
  { tree with working := process.working, process := process.number, named := process.named }

/-- A new process, which opens its disk tier. -/
def launch
    (environment : Environment) (tree : FileTree) (working : Location)
    (number memoryEntries : Nat) (disk : Option DiskConfig) : Process × FileTree :=
  let (previewer, opened) :=
    Previewer.start environment .patterns { tree with working, process := number, named := 0 }
      memoryEntries disk
  (⟨previewer, working, number, opened.named, [], .idle⟩, opened)

theorem launch_eq
    (environment : Environment) (tree : FileTree) (working : Location)
    (number memoryEntries : Nat) (disk : Option DiskConfig) :
    launch environment tree working number memoryEntries disk =
      (⟨⟨environment, .patterns,
            (Cache.openAt { tree with working, process := number, named := 0 } memoryEntries
              disk).2,
            [], .zero⟩,
          working, number,
          (Cache.openAt { tree with working, process := number, named := 0 } memoryEntries
            disk).1.named,
          [], .idle⟩,
        (Cache.openAt { tree with working, process := number, named := 0 } memoryEntries
          disk).1) := by
  rw [launch, Previewer.start]

/-- The queue after an outcome: a highlighted preview waits to be written if there is a disk tier
and room for it. -/
def queueAfter (process : Process) (request : Request) (outcome : Outcome) :
    List (Key × StyledText) :=
  match outcome.status, process.previewer.cache.disk with
  | .highlighted, some _ =>
    if process.queue.length < queueDepth then
      process.queue ++ [(request.key, outcome.styled)]
    else process.queue
  | _, _ => process.queue

theorem mem_queueAfter
    {process : Process} {request : Request} {outcome : Outcome}
    {job : Key × StyledText} (member : job ∈ process.queueAfter request outcome) :
    job ∈ process.queue ∨
      outcome.status = .highlighted ∧ job = (request.key, outcome.styled) := by
  unfold queueAfter at member
  split at member
  · next highlighted _ =>
      split at member
      · rcases List.mem_append.mp member with old | new
        · exact Or.inl old
        · exact Or.inr ⟨highlighted, List.mem_singleton.mp new⟩
      · exact Or.inl member
  · exact Or.inl member

/-- Answers a request while the work of the highlighter goes in some way. -/
def preview (process : Process) (tree : FileTree) (request : Request) (timing : Timing) :
    Process × FileTree × Outcome :=
  let (previewer, changed, outcome) :=
    { process.previewer with highlighter := .timed timing }.answer tree request
  ({ process with previewer, queue := process.queueAfter request outcome }, changed,
    outcome)

/-- Answers a request while some highlighter works on its text. -/
def respond
    (process : Process) (tree : FileTree) (request : Request) (highlighter : Highlighter) :
    Process × FileTree × Outcome :=
  let (previewer, changed, outcome) :=
    { process.previewer with highlighter }.answer tree request
  ({ process with previewer, queue := process.queueAfter request outcome }, changed,
    outcome)

theorem preview_eq_respond
    (process : Process) (tree : FileTree) (request : Request) (timing : Timing) :
    process.preview tree request timing = process.respond tree request (.timed timing) :=
  rfl

/-- A process answers a request as its previewer does, and may then have one thing more to
write. -/
theorem exists_of_respond
    {process after : Process} {tree changed : FileTree} {request : Request}
    {highlighter : Highlighter} {outcome : Outcome}
    (responds : process.respond tree request highlighter = (after, changed, outcome)) :
    ∃ previewer,
      { process.previewer with highlighter }.answer tree request =
          (previewer, changed, outcome) ∧
        after =
          { process with previewer, queue := process.queueAfter request outcome } := by
  unfold respond at responds
  cases answers : { process.previewer with highlighter }.answer tree request with
  | mk previewer others =>
  obtain ⟨seen, answered⟩ := others
  rw [answers] at responds
  dsimp only at responds
  obtain ⟨rfl, same⟩ := Prod.mk.inj responds
  obtain ⟨rfl, rfl⟩ := Prod.mk.inj same
  exact ⟨previewer, rfl, rfl⟩

theorem exists_of_preview
    {process after : Process} {tree changed : FileTree} {request : Request}
    {timing : Timing} {outcome : Outcome}
    (previews : process.preview tree request timing = (after, changed, outcome)) :
    ∃ previewer,
      { process.previewer with highlighter := .timed timing }.answer tree request =
          (previewer, changed, outcome) ∧
        after =
          { process with previewer, queue := process.queueAfter request outcome } := by
  rw [preview_eq_respond] at previews
  exact exists_of_respond previews

/-- A process that has nothing to write has at most its answer to write afterwards. -/
theorem pending_of_preview
    {process after : Process} {tree changed : FileTree} {request : Request}
    {timing : Timing} {outcome : Outcome} (waits : process.pending = [])
    (previews : process.preview tree request timing = (after, changed, outcome)) :
    after.pending =
      if outcome.status = .highlighted ∧
          process.previewer.cache.disk.isSome = true then
        [(request.key, outcome.styled)]
      else [] := by
  obtain ⟨previewer, _, rfl⟩ := exists_of_preview previews
  obtain ⟨idle, empty⟩ := idle_of_pending_eq_nil waits
  rw [pending_of_idle (by exact idle)]
  dsimp only
  unfold queueAfter
  rw [empty]
  cases outcome.status <;> cases process.previewer.cache.disk <;> simp [queueDepth]

/-- The writer takes the first preview out of the queue. -/
def take? (process : Process) (tree : FileTree) : Option (Process × FileTree) :=
  match process.writer, process.queue with
  | .idle, (key, styled) :: queue =>
    some ({ process with queue, writer := .writing key styled }, tree)
  | _, _ => none

/-- The writer writes the preview that it has taken.  After a failure there is nothing to
count. -/
def write? (process : Process) (tree : FileTree) : Option (Process × FileTree) :=
  match process.writer, process.previewer.cache.disk with
  | .writing key styled, some disk =>
    match disk.store tree key styled with
    | (changed, .ok ()) =>
      some ({ process with writer := .written, named := changed.named }, changed)
    | (changed, .error _) =>
      some ({ process with writer := .idle, named := changed.named }, changed)
  | _, _ => none

def withDisk (process : Process) (disk : DiskTier) : Process :=
  { process with
    previewer :=
      { process.previewer with
        cache := { process.previewer.cache with disk := some disk } } }

/-- The writer counts what it has written, and sweeps the tier when it is time for that. -/
def settle? (process : Process) (tree : FileTree) : Option (Process × FileTree) :=
  match process.writer, process.previewer.cache.disk with
  | .written, some disk =>
    let (disk, changed) := disk.settle tree
    some ({ process.withDisk disk with writer := .idle }, changed)
  | _, _ => none

/-- Writing a preview and counting it afterwards is what setting it in the tier does at once. -/
theorem set_eq_of_write_of_settle
    {process written after : Process} {tree changed settled : FileTree}
    {disk : DiskTier} {key : Key} {styled : StyledText}
    (writing : process.writer = .writing key styled)
    (opened : process.previewer.cache.disk = some disk)
    (writes : process.write? tree = some (written, changed))
    (settles : written.settle? changed = some (after, settled)) :
    ∃ counted,
      disk.set tree key styled = (counted, settled) ∧
        after = { process.withDisk counted with writer := .idle, named := changed.named } := by
  unfold write? at writes
  rw [writing, opened] at writes
  dsimp only at writes
  rw [DiskTier.set]
  cases stores : disk.store tree key styled with
  | mk stored result =>
  rw [stores] at writes
  cases result with
  | error failure =>
      cases writes
      cases settles
  | ok _ =>
      cases writes
      unfold settle? at settles
      dsimp only at settles
      rw [opened] at settles
      dsimp only at settles ⊢
      cases counts : disk.settle changed with
      | mk counted swept =>
      rw [counts] at settles
      cases settles
      exact ⟨counted, rfl, rfl⟩

/-- Waits until everything in the queue has been written. -/
def flush? (process : Process) (tree : FileTree) : Option (Process × FileTree) :=
  match process.writer, process.queue with
  | .idle, [] => some (process, tree)
  | _, _ => none

theorem eq_of_flush
    {process after : Process} {tree changed : FileTree}
    (flushes : process.flush? tree = some (after, changed)) :
    after = process ∧ changed = tree := by
  unfold flush? at flushes
  split at flushes
  · cases flushes
    exact ⟨rfl, rfl⟩
  · cases flushes

def withCache (process : Process) (cache : Cache) : Process :=
  { process with previewer := { process.previewer with cache } }

/-- Empties the cache once everything in the queue has been written. -/
def clear? (process : Process) (tree : FileTree) : Option (Process × FileTree) := do
  let (process, tree) ← process.flush? tree
  let (cache, changed, _) := process.previewer.cache.clear tree
  return (process.withCache cache, changed)

def forget? (process : Process) (tree : FileTree) : Option (Process × FileTree) :=
  some (process.withCache process.previewer.cache.clearMemory, tree)

/-- Sweeps the disk tier, whatever the writer is doing. -/
def sweep? (process : Process) (tree : FileTree) : Option (Process × FileTree) :=
  process.previewer.cache.disk.map fun disk => (process, (disk.cleanup tree).1)

end Process

/-- A request that was answered, with the process and the tree as it saw it before, and the process
afterwards. -/
structure Visit where
  request : Request
  process : Process
  tree : FileTree
  after : Process
  outcome : Outcome

/-- The processes, their tree and what was answered so far, the latest first. -/
structure System where
  tree : FileTree
  processes : List Process
  visits : List Visit

/-- What may happen next.  A process that is launched again ends, whatever is still in its queue,
and a new one takes its place. -/
inductive Event where
  | launch (working : Location) (number memoryEntries : Nat) (disk : Option DiskConfig)
  | relaunch
    (index : Nat) (working : Location) (number memoryEntries : Nat)
    (disk : Option DiskConfig)
  | preview (index : Nat) (request : Request) (timing : Timing)
  | take (index : Nat)
  | write (index : Nat)
  | settle (index : Nat)
  | flush (index : Nat)
  | clear (index : Nat)
  | forget (index : Nat)
  | sweep (index : Nat)
  | deleteDirectory
  | setClock (time : Timestamp)

namespace System

def start (tree : FileTree) : System :=
  ⟨tree, [], []⟩

/-- One process does something, if it can. -/
def act
    (system : System) (index : Nat)
    (action : Process → FileTree → Option (Process × FileTree)) : Option System := do
  let process ← system.processes[index]?
  let (process, tree) ← action process (process.sees system.tree)
  return { system with tree, processes := system.processes.set index process }

/-- One event with its effects, if it is possible. -/
def step?
    (environment : Environment) (directory : Location) (system : System) :
    Event → Option System
  | .launch working number memoryEntries disk =>
    let (process, tree) :=
      Process.launch environment system.tree working number memoryEntries disk
    some { system with tree, processes := system.processes ++ [process] }
  | .relaunch index working number memoryEntries disk =>
    let (process, tree) :=
      Process.launch environment system.tree working number memoryEntries disk
    some { system with tree, processes := system.processes.set index process }
  | .preview index request timing => do
    let process ← system.processes[index]?
    let seen := process.sees system.tree
    let (after, tree, outcome) := process.preview seen request timing
    return ⟨tree, system.processes.set index after,
      ⟨request, process, seen, after, outcome⟩ :: system.visits⟩
  | .take index => system.act index Process.take?
  | .write index => system.act index Process.write?
  | .settle index => system.act index Process.settle?
  | .flush index => system.act index Process.flush?
  | .clear index => system.act index Process.clear?
  | .forget index => system.act index Process.forget?
  | .sweep index => system.act index Process.sweep?
  | .deleteDirectory => some { system with tree := system.tree.eraseBelow directory }
  | .setClock time => some { system with tree := { system.tree with clock := time } }

/-- Where a run of events leads, if all of them are possible. -/
def run?
    (environment : Environment) (directory : Location) (system : System)
    (events : List Event) : Option System :=
  events.foldlM (step? environment directory) system

/-- Whether a condition holds before each event of a run. -/
def Always
    (environment : Environment) (directory : Location)
    (condition : System → Event → Prop) : System → List Event → Prop
  | _, [] => True
  | system, event :: events =>
    condition system event ∧
      ∀ next ∈ system.step? environment directory event,
        next.Always environment directory condition events

instance instDecidableAlways
    (environment : Environment) (directory : Location)
    (condition : System → Event → Prop)
    [∀ system event, Decidable (condition system event)]
    (system : System) (events : List Event) :
    Decidable (system.Always environment directory condition events) :=
  match events with
  | [] => inferInstanceAs (Decidable True)
  | _ :: events =>
    have (next : System) :
        Decidable (next.Always environment directory condition events) :=
      instDecidableAlways environment directory condition next events
    inferInstanceAs (Decidable (_ ∧ ∀ next ∈ _, _))

section

variable
    {holds : Process → Prop} {processes : List Process} {process : Process}

/-- What is true of all processes and of another one stays true when this takes the place of one
of them. -/
theorem forall_mem_set
    (all : ∀ process ∈ processes, holds process) (index : Nat) {after : Process}
    (here : holds after) :
    ∀ process ∈ processes.set index after, holds process := by
  intro process member
  rcases List.mem_or_eq_of_mem_set member with old | rfl
  · exact all process old
  · exact here

theorem mem_set_of_getElem?
    {index : Nat} (present : processes[index]? = some process) (after : Process) :
    after ∈ processes.set index after :=
  List.mem_set (List.getElem?_eq_some_iff.mp present).1 after

/-- Only the process at the index is not among the others afterwards. -/
theorem getElem?_or_mem_set
    (member : process ∈ processes) (index : Nat) (after : Process) :
    processes[index]? = some process ∨ process ∈ processes.set index after := by
  obtain ⟨place, present⟩ := List.mem_iff_getElem?.mp member
  by_cases here : index = place
  · exact Or.inl (here ▸ present)
  · refine Or.inr (List.mem_iff_getElem?.mpr ⟨place, ?_⟩)
    rw [List.getElem?_set_ne here]
    exact present

/-- Something goes on holding of some process if it does not tell the new one from the one in its
place. -/
theorem exists_mem_set_iff
    {index : Nat} {after : Process}
    (same : ∀ process ∈ processes[index]?, (holds after ↔ holds process)) :
    (∃ process ∈ processes.set index after, holds process) ↔
      ∃ process ∈ processes, holds process := by
  cases present : processes[index]? with
  | none =>
      rw [List.set_eq_of_length_le (List.getElem?_eq_none_iff.mp present)]
  | some replaced =>
      constructor
      · rintro ⟨process, member, here⟩
        rcases List.mem_or_eq_of_mem_set member with old | rfl
        · exact ⟨process, old, here⟩
        · exact ⟨replaced, List.mem_of_getElem? present, (same replaced present).mp here⟩
      · rintro ⟨process, member, here⟩
        rcases getElem?_or_mem_set member index after with taken | old
        · exact ⟨after, mem_set_of_getElem? present after, (same process taken).mpr here⟩
        · exact ⟨process, old, here⟩

end

section

variable
    {environment : Environment} {directory : Location}
    {condition : System → Event → Prop} {system next final : System}
    {event : Event} {events : List Event}

/-- What one process does changes this process, the tree and nothing else. -/
theorem exists_of_act
    {index : Nat} {action : Process → FileTree → Option (Process × FileTree)}
    (acts : system.act index action = some next) :
    ∃ process after tree,
      system.processes[index]? = some process ∧
        action process (process.sees system.tree) = some (after, tree) ∧
          next = { system with tree, processes := system.processes.set index after } := by
  obtain ⟨process, present, acts⟩ := Option.bind_eq_some_iff.mp acts
  obtain ⟨⟨after, tree⟩, done, same⟩ := Option.bind_eq_some_iff.mp acts
  exact ⟨process, after, tree, present, done, (Option.some.inj same).symm⟩

theorem exists_of_step_launch
    {working : Location} {number memoryEntries : Nat} {disk : Option DiskConfig}
    (steps :
      system.step? environment directory
          (.launch working number memoryEntries disk) =
        some next) :
    ∃ process tree,
      Process.launch environment system.tree working number memoryEntries disk =
          (process, tree) ∧
        next = { system with tree, processes := system.processes ++ [process] } :=
  ⟨_, _, rfl, (Option.some.inj steps).symm⟩

theorem exists_of_step_relaunch
    {index : Nat} {working : Location} {number memoryEntries : Nat}
    {disk : Option DiskConfig}
    (steps :
      system.step? environment directory
          (.relaunch index working number memoryEntries disk) =
        some next) :
    ∃ process tree,
      Process.launch environment system.tree working number memoryEntries disk =
          (process, tree) ∧
        next =
          { system with tree, processes := system.processes.set index process } :=
  ⟨_, _, rfl, (Option.some.inj steps).symm⟩

/-- A request is answered by one process, which sees the tree in its own way. -/
theorem exists_of_step_preview
    {index : Nat} {request : Request} {timing : Timing}
    (steps :
      system.step? environment directory (.preview index request timing) =
        some next) :
    ∃ (visit : Visit) (tree : FileTree),
      visit.request = request ∧
        system.processes[index]? = some visit.process ∧
        visit.tree = visit.process.sees system.tree ∧
        visit.process.preview visit.tree visit.request timing =
          (visit.after, tree, visit.outcome) ∧
        next =
          ⟨tree, system.processes.set index visit.after, visit :: system.visits⟩ := by
  obtain ⟨process, present, same⟩ := Option.bind_eq_some_iff.mp steps
  exact
    ⟨⟨request, process, process.sees system.tree, _, _⟩, _, rfl, present, rfl, rfl,
      (Option.some.inj same).symm⟩

theorem visits_of_step
    (steps : system.step? environment directory event = some next) :
    system.visits ⊆ next.visits := by
  have acted
      {index : Nat} {action : Process → FileTree → Option (Process × FileTree)}
      (acts : system.act index action = some next) :
      system.visits ⊆ next.visits := by
    obtain ⟨_, _, _, _, _, rfl⟩ := exists_of_act acts
    exact List.Subset.refl _
  cases event with
  | preview index request timing =>
      obtain ⟨_, _, _, _, _, _, rfl⟩ := exists_of_step_preview steps
      exact List.subset_cons_self _ _
  | launch | relaunch | deleteDirectory | setClock =>
      cases steps
      exact List.Subset.refl _
  | take | write | settle | flush | clear | forget | sweep => exact acted steps

/-- No visit is forgotten in a run of steps that forget none. -/
theorem visits_of_foldlM
    {Item : Type} {step : System → Item → Option System}
    (grows : ∀ {system item next},
      step system item = some next → system.visits ⊆ next.visits)
    {items : List Item} (ran : items.foldlM step system = some final) :
    system.visits ⊆ final.visits := by
  induction items generalizing system with
  | nil =>
      cases ran
      exact List.Subset.refl _
  | cons item items ih =>
      obtain ⟨next, steps, goesOn⟩ := Option.bind_eq_some_iff.mp ran
      exact List.Subset.trans (grows steps) (ih goesOn)

theorem visits_of_run
    (ran : system.run? environment directory events = some final) :
    system.visits ⊆ final.visits :=
  visits_of_foldlM visits_of_step ran

/-- What each step of a run keeps, as long as the condition of the run holds before the step,
holds at the end if it holds at the beginning. -/
theorem holds_of_run
    {holds : System → Prop}
    (keeps : ∀ {system event next},
      condition system event → holds system →
        system.step? environment directory event = some next →
          next.visits ⊆ final.visits → holds next)
    (always : system.Always environment directory condition events)
    (ran : system.run? environment directory events = some final)
    (begins : holds system) :
    holds final := by
  induction events generalizing system with
  | nil =>
      cases ran
      exact begins
  | cons event events ih =>
      obtain ⟨next, steps, goesOn⟩ := Option.bind_eq_some_iff.mp ran
      exact
        ih (always.2 next steps) goesOn
          (keeps always.1 begins steps (visits_of_run goesOn))

end

end System

end SourcePreview
