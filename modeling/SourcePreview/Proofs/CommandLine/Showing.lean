import SourcePreview.Proofs.CommandLine.Plans
import SourcePreview.Proofs.Preview.Texts

/-!
# What is printed for files

A run without colours and reports prints the texts of the files that can be shown, in the order of
their paths.  Nothing that is done for one file changes what is printed for the next: previews have
the texts of their requests, and only files that cannot be shown are changed.
-/

namespace SourcePreview

open FileTree

/-- What is printed for a file: its text, with a line feed where the last line has none. -/
def File.piped (file : File) : Bytes :=
  let characters := Text.decodeLossy file.bytes
  if characters = [] ∨ characters.getLast? = some '\n' then Text.encode characters
  else Text.encode (characters ++ ['\n'])

/-- What is printed for a path: nothing unless it leads to a file that can be shown. -/
def FileTree.piped (tree : FileTree) (path : Path) : Bytes :=
  match tree.textAt? path with
  | some file => file.piped
  | none => []

theorem FileTree.ShowsSame.piped_eq
    {before after : FileTree} (same : ShowsSame before after) (path : Path) :
    after.piped path = before.piped path := by
  rw [FileTree.piped, FileTree.piped, same.textAt?_eq]

/-- A preview with the text of a file is printed as the file is. -/
theorem Terminal.encode_plain
    {styled : StyledText} {file : File} (same : styled.text = file.text) :
    Text.encode (plain styled).toList = file.piped := by
  have characters : file.text.toList = Text.decodeLossy file.bytes := String.toList_ofList
  rw [plain, String.toList_append, same, characters, missingLineFeed, characters, File.piped]
  split
  · rw [String.toList_empty, List.append_nil]
  · rfl

namespace Previewer

variable
    {previewer after : Previewer} {tree changed : FileTree} {request : Request}
    {outcome : Outcome}

/-- The process with another highlighter. -/
def withHighlighter (previewer : Previewer) (highlighter : Highlighter) : Previewer :=
  { previewer with highlighter }

/-- A process keeps its highlighter when it computes a preview. -/
theorem highlighter_compute
    (computes : previewer.compute tree request = (after, outcome)) :
    after.highlighter = previewer.highlighter := by
  obtain ⟨palettes, asked⟩ := exists_palette_fst_eq previewer tree request.themeId
  unfold compute highlight degrade count at computes
  dsimp only at computes
  rw [asked] at computes
  repeat' split at computes
  all_goals
    cases computes
    rfl

/-- A process keeps its highlighter when it makes a preview. -/
theorem highlighter_preview
    (previews : previewer.preview tree request = (after, changed, outcome)) :
    after.highlighter = previewer.highlighter := by
  have answered : (previewer.answer tree request).1.highlighter = previewer.highlighter := by
    unfold answer
    dsimp only
    split
    · rfl
    · exact (highlighter_compute (Prod.mk.eta.symm)).trans rfl
  unfold preview persist at previews
  dsimp only at previews
  split at previews
  all_goals
    cases previews
    exact answered

end Previewer

namespace Program

/-- The requests of a run that shows files: one for each file that can be shown. -/
def requests (plan : Plan) (tree : FileTree) (paths : List Path) : List Request :=
  paths.filterMap fun path =>
    (Source.read tree path).toOption.map fun source => request plan tree path source

theorem requests_cons (plan : Plan) (tree : FileTree) (path : Path) (paths : List Path) :
    requests plan tree (path :: paths) =
      requests plan tree [path] ++ requests plan tree paths := by
  rw [requests, requests, requests, ← List.filterMap_append, List.singleton_append]

/-- The same files that can be shown give the same requests. -/
theorem requests_of_showsSame
    {before after : FileTree} (same : ShowsSame before after) (plan : Plan) (paths : List Path) :
    requests plan after paths = requests plan before paths := by
  have sameRequest : request plan after = request plan before := by
    funext path source
    rw [request, workingPath, same.working]
    rfl
  unfold requests
  simp only [Source.toOption_read, same.textAt?_eq, sameRequest]

/-- The run with another highlighter. -/
def State.withHighlighter (state : State) (highlighter : Highlighter) : State :=
  { state with previewer := state.previewer.withHighlighter highlighter }

/-- Shows files in order, each with a highlighter of its own, and counts those that cannot be
shown. -/
def showEach (plan : Plan) (colored : Bool) (work : Nat → Highlighter) :
    (index failures : Nat) → State → List Path → State × Nat
  | _, failures, state, [] => (state, failures)
  | index, failures, state, path :: paths =>
    let (state, isShown) := showFile plan colored (state.withHighlighter (work index)) path
    showEach plan colored work (index + 1) (if isShown then failures else failures + 1) state paths

theorem State.withHighlighter_eq_self
    {state : State} {highlighter : Highlighter} (same : state.previewer.highlighter = highlighter) :
    state.withHighlighter highlighter = state := by
  subst same
  rfl

/-- If each file has the highlighter of the process, then files are shown as usual. -/
theorem showEach_eq_showFiles
    {highlighter : Highlighter} {state : State} (same : state.previewer.highlighter = highlighter)
    (plan : Plan) (colored : Bool) (index failures : Nat) (paths : List Path) :
    showEach plan colored (fun _ => highlighter) index failures state paths =
      showFiles plan colored failures state paths := by
  induction paths generalizing index failures state with
  | nil => rfl
  | cons path paths ih =>
      have kept : (showFile plan colored state path).1.previewer.highlighter = highlighter := by
        rw [← same]
        unfold showFile
        dsimp only
        split
        · rfl
        · next source _ =>
            cases previews :
                state.previewer.preview state.tree
                  (request plan state.tree path source) with
            | mk previewer rest => exact Previewer.highlighter_preview previews
      rw [showEach, showFiles, State.withHighlighter_eq_self same]
      exact ih kept ..

section Show

variable {plan : Plan} {colored : Bool} {directory : Location} {asked : List Request}

/-- A file that is shown is printed as it is, and apart from entries nothing is changed, whatever
the highlighter does. -/
theorem showFile_spec
    {state after : State} {highlighter : Highlighter} {path : Path} {isShown : Bool}
    (faithful : state.previewer.cache.IsFaithful state.tree directory asked)
    (tell : Request.KeysTell asked)
    (areAsked : ∀ request ∈ requests plan state.tree [path], request ∈ asked)
    (shows : showFile plan colored (state.withHighlighter highlighter) path = (after, isShown)) :
    after.previewer.cache.IsFaithful after.tree directory asked ∧
      ChangesEntries directory state.tree after.tree ∧
      isShown = (state.tree.textAt? path).isSome ∧
      (plan.json = false → colored = false →
        after.console.stdout = state.console.stdout ++ state.tree.piped path) := by
  have reads := Source.toOption_read state.tree path
  have worked :
      (state.previewer.withHighlighter highlighter).cache.IsFaithful state.tree directory asked :=
    faithful
  unfold showFile State.withHighlighter at shows
  dsimp only at shows
  cases read : Source.read state.tree path with
  | error failure =>
      rw [read] at reads shows
      cases shows
      have absent := Option.map_eq_none_iff.mp reads.symm
      refine ⟨faithful, ChangesEntries.refl _, ?_, fun _ _ => ?_⟩
      · rw [absent]
        rfl
      · rw [FileTree.piped, absent, List.append_nil]
        rfl
  | ok source =>
      have isAsked : request plan state.tree path source ∈ asked := by
        apply areAsked
        rw [requests, List.filterMap_cons, read]
        exact List.mem_singleton_self _
      rw [read] at reads shows
      obtain ⟨file, present, rfl⟩ := Option.map_eq_some_iff.mp reads.symm
      dsimp only at shows
      cases previews :
          (state.previewer.withHighlighter highlighter).preview state.tree
            (request plan state.tree path ⟨file.text, file.modified⟩) with
      | mk previewer rest =>
          obtain ⟨changed, outcome⟩ := rest
          obtain ⟨same, kept, changes⟩ :=
            Previewer.preview_of_isFaithful worked tell isAsked previews
          rw [previews] at shows
          dsimp only at shows
          cases shows
          refine ⟨kept, changes, ?_, fun noReport isPiped => ?_⟩
          · rw [present]
            rfl
          · rw [FileTree.piped, present, Console.printBytes, shown, if_neg (by simp [noReport]),
              if_neg (by simp [isPiped]), Terminal.encode_plain same]

/-- What is printed for files is what there was when the first one was looked at, and so is the
number of those that cannot be shown. -/
theorem showEach_spec
    {work : Nat → Highlighter} {index failures total : Nat} {found : FileTree}
    {state after : State} {paths : List Path}
    (faithful : state.previewer.cache.IsFaithful state.tree directory asked)
    (tell : Request.KeysTell asked)
    (areAsked : ∀ request ∈ requests plan found paths, request ∈ asked)
    (changed : ChangesEntries directory found state.tree)
    (shows : showEach plan colored work index failures state paths = (after, total)) :
    after.previewer.cache.IsFaithful after.tree directory asked ∧
      ChangesEntries directory found after.tree ∧
      total = failures +
        paths.countP (fun path => (found.textAt? path).isNone) ∧
      (plan.json = false → colored = false →
        after.console.stdout = state.console.stdout ++ paths.flatMap found.piped) := by
  induction paths generalizing index failures state with
  | nil =>
      cases shows
      exact ⟨faithful, changed, rfl, fun _ _ => (List.append_nil _).symm⟩
  | cons path paths ih =>
      have same := changed.showsSame
      rw [requests_cons] at areAsked
      rw [showEach] at shows
      cases first :
          showFile plan colored (state.withHighlighter (work index)) path with
      | mk next isShown =>
          rw [first] at shows
          dsimp only at shows
          have firstAsked : ∀ request ∈ requests plan state.tree [path], request ∈ asked := by
            rw [requests_of_showsSame same]
            intro request member
            exact areAsked request (List.mem_append_left _ member)
          obtain ⟨nextFaithful, changes, isShownIff, printed⟩ :=
            showFile_spec faithful tell firstAsked first
          obtain ⟨afterFaithful, allChanged, counted, allPrinted⟩ :=
            ih nextFaithful
              (fun request member => areAsked request (List.mem_append_right _ member))
              (changed.trans changes) shows
          refine ⟨afterFaithful, allChanged, ?_, fun noReport isPiped => ?_⟩
          · rw [counted, isShownIff, same.textAt?_eq, List.countP_cons]
            cases found.textAt? path with
            | none => simp [Nat.add_assoc, Nat.add_comm 1]
            | some file => simp
          · rw [allPrinted noReport isPiped, printed noReport isPiped, same.piped_eq,
              List.flatMap_cons, List.append_assoc]

end Show

end Program

end SourcePreview
