import SourcePreview.Proofs.CommandLine.Runs

/-!
# Histories of runs

Runs that follow one another may share a directory for previews.  If nobody else puts files there
under the names of the disk tier, and if the path and the time of a file tell its text, then the
directory has nothing but texts that were asked for.  A run that prints neither colours nor reports
therefore prints the texts of the files, whatever was done before and whatever the highlighter does.
-/

namespace SourcePreview

open FileTree

namespace Request

/-- Whether the path and the time of a file tell its text, as far as some requests go, and the keys
of these requests tell as much: their fields have the usual sizes, and the digest tells their
materials apart. -/
structure AreConsistent (asked : List Request) : Prop where
  sameText : ∀ first ∈ asked, ∀ second ∈ asked,
    first.path = second.path → first.modified = second.modified → first.text = second.text
  fits : ∀ request ∈ asked, Key.Fits request.path request.modified request.themeId
  noCollision : ∀ first ∈ asked, ∀ second ∈ asked,
    Sha256.digest first.material = Sha256.digest second.material →
      first.material = second.material

theorem AreConsistent.keysTell {asked : List Request} (consistent : AreConsistent asked) :
    KeysTell asked := by
  intro first isAsked second isAskedToo sameKey
  obtain ⟨samePath, sameTime, _, _⟩ :=
    fields_eq_of_key_eq (consistent.fits first isAsked) (consistent.fits second isAskedToo)
      (consistent.noCollision first isAsked second isAskedToo) sameKey
  exact consistent.sameText first isAsked second isAskedToo samePath sameTime

end Request

/-- Whether files with a name belong to the disk tier: the names of keys and of temporary files. -/
def DiskTier.IsOwnName (name : Bytes) : Prop :=
  (∃ key : Key, key.fileName = name) ∨
    ∃ text : String, text.endsWith ".tmp" = true ∧ Text.encode text.toList = name

/-- Whether a change leaves writing in a directory to the disk tier: under the names of the tier
there are no files that were not there before with the same bytes. -/
def FileTree.LeavesToTier (directory : Location) (before after : FileTree) : Prop :=
  ∀ name, DiskTier.IsOwnName name → ∀ file,
    after.node? (directory ++ [name]) = some (.file file) →
      ∃ old, before.node? (directory ++ [name]) = some (.file old) ∧ old.bytes = file.bytes

namespace FileTree.IsFaithful

variable {first second : FileTree} {directory : Location} {asked : List Request}

/-- A directory in which the disk tier has no files yet has no texts at all. -/
theorem of_unused
    (unused : ∀ name, DiskTier.IsOwnName name → ∀ file,
      first.node? (directory ++ [name]) ≠ some (.file file)) :
    first.IsFaithful directory asked := by
  have noEntry :
      ∀ (key : Key) file, first.node? (directory ++ [key.fileName]) ≠ some (.file file) :=
    fun key => unused _ (Or.inl ⟨key, rfl⟩)
  refine ⟨?entries, ?keys, ?temporary⟩
  case entries =>
    rintro key styled ⟨bytes, entry, _⟩
    obtain ⟨file, present, _⟩ := entryAt?_eq_some_iff.mp entry
    exact absurd present (noEntry key file)
  case keys =>
    intro key file present
    exact absurd present (noEntry key file)
  case temporary =>
    intro name file ends
    exact unused _ (Or.inr ⟨name, ends, rfl⟩) file

variable (faithful : first.IsFaithful directory asked)

include faithful

theorem of_leaves (leaves : LeavesToTier directory first second) :
    second.IsFaithful directory asked := by
  refine ⟨?entries, ?keys, ?temporary⟩
  case entries =>
    rintro key styled ⟨bytes, entry, decodes⟩
    obtain ⟨file, present, sameBytes⟩ := entryAt?_eq_some_iff.mp entry
    obtain ⟨old, wasPresent, wereBytes⟩ := leaves _ (Or.inl ⟨key, rfl⟩) file present
    apply faithful.entries key styled
    exact ⟨bytes, entryAt?_eq_some_iff.mpr ⟨old, wasPresent, wereBytes.trans sameBytes⟩, decodes⟩
  case keys =>
    intro key file present
    obtain ⟨old, wasPresent, wereBytes⟩ := leaves _ (Or.inl ⟨key, rfl⟩) file present
    rw [← File.isText_congr wereBytes]
    exact faithful.reserved.entries key old wasPresent
  case temporary =>
    intro name file ends present
    obtain ⟨old, wasPresent, _⟩ := leaves _ (Or.inr ⟨name, ends, rfl⟩) file present
    exact faithful.reserved.temporary name old ends wasPresent

end FileTree.IsFaithful

namespace Program

/-- The runs that have shared a directory, one after the other, and the files after them.  In
between anything may happen to the files, except that only the runs write under the names of the
disk tier. -/
inductive History (directory : Location) : List Run → FileTree → Prop where
  /-- At first there are no files of the disk tier. -/
  | start (tree : FileTree)
      (unused : ∀ name, DiskTier.IsOwnName name → ∀ file,
        tree.node? (directory ++ [name]) ≠ some (.file file)) :
      History directory [] tree
  /-- A run of any kind. -/
  | run {earlier : List Run} (run : Run) (history : History directory earlier run.tree)
      (shares : run.Shares directory) :
      History directory (earlier ++ [run]) run.result.tree
  /-- Something else. -/
  | between {earlier : List Run} {before : FileTree} (after : FileTree)
      (history : History directory earlier before)
      (leaves : LeavesToTier directory before after) :
      History directory earlier after

namespace History

/-- After any history the directory has nothing but texts that were asked for. -/
theorem isFaithful
    {directory : Location} {earlier : List Run} {tree : FileTree} {asked : List Request}
    (history : History directory earlier tree) (tell : Request.KeysTell asked)
    (areAsked : ∀ run ∈ earlier, ∀ request ∈ run.requests, request ∈ asked) :
    tree.IsFaithful directory asked := by
  induction history with
  | start tree unused => exact .of_unused unused
  | run run history shares ih =>
      rw [List.forall_mem_append] at areAsked
      apply Run.isFaithful_result shares (ih areAsked.1) tell
      exact areAsked.2 run (List.mem_singleton_self run)
  | between after history leaves ih => exact (ih areAsked).of_leaves leaves

/-- After any history, a run that shows files and prints neither colours nor reports prints the text
of each file that can be shown, in the order of their paths, and nothing for any other path.  It
ends well exactly if every file can be shown.  What the highlighter does with the texts is left
open; for the highlighter of the rule tables the run is one of the program. -/
theorem stdout_eq_piped
    {directory : Location} {earlier : List Run} {run : Run} {plan : Plan} {paths : List Path}
    (history : History directory earlier run.tree) (shares : run.Shares directory)
    (consistent : Request.AreConsistent ((earlier ++ [run]).flatMap Run.requests))
    (planned : run.plan? = some plan) (previews : plan.task = .preview paths)
    (noReport : plan.json = false) (isPiped : run.colored = false) :
    run.result.console.stdout = paths.flatMap run.found.piped ∧
      (run.result.exitCode = 0 ↔
        ∀ path ∈ paths, ∃ file, run.found.HasText path file) ∧
      AddsDirectories run.tree run.found ∧
      ((∀ index, run.work index = .patterns) →
        run.result = Program.run run.environment run.tree run.colored run.words) := by
  have tell := consistent.keysTell
  have areAsked : ∀ one ∈ earlier ++ [run], ∀ request ∈ one.requests,
      request ∈ (earlier ++ [run]).flatMap Run.requests :=
    fun one member request isAsked => List.mem_flatMap.mpr ⟨one, member, isAsked⟩
  rw [List.forall_mem_append] at areAsked
  have faithful := history.isFaithful tell areAsked.1
  have runAsked := areAsked.2 run (List.mem_singleton_self run)
  cases shows : showEach plan run.colored run.work 0 0 (run.started plan) paths with
  | mk after failures =>
      obtain ⟨adds, _, counted, printed⟩ :=
        Run.showEach_spec shares faithful tell runAsked planned previews shows
      have concludes : run.result = concluded plan paths (after, failures) := by
        rw [Run.result, planned]
        dsimp only
        rw [previews]
        dsimp only
        rw [shows]
      refine ⟨?printed, ?exitCode, adds, Run.result_eq_run⟩
      case printed =>
        rw [concludes, stdout_concluded]
        exact printed noReport isPiped
      case exitCode =>
        rw [concludes, exitCode_concluded, counted, List.countP_eq_zero]
        apply forall₂_congr
        intro path _
        rw [Option.isNone_iff_eq_none, ← ne_eq, Option.ne_none_iff_exists']
        simp only [textAt?_eq_some_iff]

/-- Directories of the user below the root. -/
def sampleEnvironment : Environment :=
  ⟨none, none, some (.ofString "/g"), none, some (.ofString "/c")⟩

/-- A file whose only line is not ended. -/
def sampleTree : FileTree :=
  (FileTree.empty ⟨0⟩).put [Text.encode "a.txt".toList] (.file ⟨[0x61], 0, ⟨0⟩⟩)

/-- A run that is to show the file and one that is missing, with a highlighter of which nothing is
expected. -/
def sampleRun (tree : FileTree) (work : Work) : Run :=
  ⟨sampleEnvironment, tree, false, ["/a.txt", "/missing"],
    fun _ => ⟨fun _ => true, fun _ _ _ => work⟩⟩

/-- The run with a highlighter that finds no tokens, so that the preview is put into the cache. -/
def sampleFirst : Run :=
  sampleRun sampleTree (.finished [])

/-- The run once more, with a highlighter that breaks down. -/
def sampleSecond : Run :=
  sampleRun sampleFirst.result.tree .failed

/-- The request for the file. -/
def sampleRequest : Request :=
  ⟨.ofString "/a.txt", "a", ⟨0⟩, "dark", none, .milliseconds 500, 10000⟩

/-- The second run prints the file and reports the one that is missing. -/
theorem stdout_eq_piped_sample :
    sampleSecond.result.console.stdout = [0x61, 0x0A] ∧ sampleSecond.result.exitCode ≠ 0 := by
  have unused : ∀ name, DiskTier.IsOwnName name → ∀ file,
      sampleFirst.tree.node? ([Text.encode "c".toList] ++ [name]) ≠ some (.file file) := by
    intro name _ file present
    cases present
  obtain ⟨directory, directoryAgain, asked, piped, missing⟩ :
      (sampleFirst.tier?.map fun tier => tier.config.directory) = some (.ofString "/c") ∧
        (sampleSecond.tier?.map fun tier => tier.config.directory) = some (.ofString "/c") ∧
        [sampleFirst, sampleSecond].flatMap Run.requests = [sampleRequest, sampleRequest] ∧
        [.ofString "/a.txt", .ofString "/missing"].flatMap sampleSecond.found.piped = [0x61, 0x0A] ∧
        sampleSecond.found.textAt? (.ofString "/missing") = none := by
    decide +kernel
  have shares : sampleFirst.Shares [Text.encode "c".toList] := by
    intro tier opened
    rw [opened, Option.map_some] at directory
    rw [Option.some.inj directory]
    rfl
  have sharesAgain : sampleSecond.Shares [Text.encode "c".toList] := by
    intro tier opened
    rw [opened, Option.map_some] at directoryAgain
    rw [Option.some.inj directoryAgain]
    rfl
  have history : History [Text.encode "c".toList] [sampleFirst] sampleSecond.tree := by
    have started : History [Text.encode "c".toList] [] sampleFirst.tree := .start _ unused
    rw [sampleSecond, sampleRun]
    dsimp only
    exact started.run sampleFirst shares
  have isSample : ∀ request ∈ [sampleFirst, sampleSecond].flatMap Run.requests,
      request = sampleRequest := by
    rw [asked]
    intro request member
    simpa using member
  have consistent : Request.AreConsistent ([sampleFirst, sampleSecond].flatMap Run.requests) := by
    constructor
    case sameText =>
      intro first isFirst second isSecond _ _
      rw [isSample first isFirst, isSample second isSecond]
    case fits =>
      intro request isAsked
      rw [isSample request isAsked]
      constructor <;> decide +kernel
    case noCollision =>
      intro first isFirst second isSecond _
      rw [isSample first isFirst, isSample second isSecond]
  obtain ⟨plan, planned, previews, noReport⟩ :
      ∃ plan, sampleSecond.plan? = some plan ∧
        plan.task = .preview [.ofString "/a.txt", .ofString "/missing"] ∧ plan.json = false :=
    ⟨_, rfl, rfl, rfl⟩
  obtain ⟨printed, exitCode, -, -⟩ :=
    stdout_eq_piped history sharesAgain consistent planned previews noReport rfl
  refine ⟨printed.trans piped, fun succeeds => ?_⟩
  obtain ⟨file, has⟩ := exitCode.mp succeeds (.ofString "/missing") (by simp)
  rw [textAt?_eq_some_iff.mpr has] at missing
  cases missing

end History

end Program

end SourcePreview
