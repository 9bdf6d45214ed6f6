import SourcePreview.Proofs.FileTree.Changes

/-!
# Changes that leave directories alone

Writing, renaming, touching and removing files takes no directory away, and making directories
puts them only where nothing is.  So whatever could be walked to before such a change can be
walked to after it.  A file that is put somewhere is the only thing listed for its location.
-/

namespace SourcePreview.FileTree

/-- Whether the file at a location, if there is one, is listed once. -/
def ListsOnce (tree : FileTree) (location : Location) : Prop :=
  ∀ file, tree.node? location = some (.file file) →
    tree.nodes.countP (fun entry => entry.1 == location) = 1

/-- Whether a change has left all directories where they were, and lists no file twice that was
listed once or was not there. -/
structure Edits (before after : FileTree) : Prop where
  working : after.working = before.working
  directory : ∀ location,
    before.node? location = some .directory → after.node? location = some .directory
  listsOnce : ∀ location, before.ListsOnce location → after.ListsOnce location

namespace Edits

theorem refl (tree : FileTree) : Edits tree tree :=
  ⟨rfl, fun _ isDirectory => isDirectory, fun _ once => once⟩

theorem trans
    {first second third : FileTree}
    (earlier : Edits first second) (later : Edits second third) :
    Edits first third :=
  ⟨later.working.trans earlier.working,
    fun location isDirectory => later.directory location (earlier.directory location isDirectory),
    fun location once => later.listsOnce location (earlier.listsOnce location once)⟩

variable {before after : FileTree}

theorem place
    (edits : Edits before after) {path : Path} {place : Place}
    (walked : before.place path = .ok place) :
    after.place path = .ok place :=
  place_of_directories edits.directory edits.working walked

theorem nodeAt_directory
    (edits : Edits before after) {path : Path}
    (isDirectory : before.nodeAt path = .ok .directory) :
    after.nodeAt path = .ok .directory := by
  have present := node?_of_nodeAt isDirectory
  refine nodeAt_of_directories edits.directory edits.working ?_ isDirectory
  rw [present]
  exact edits.directory _ present

end Edits

theorem countP_filter_nodes
    (tree : FileTree) (left location : Location) :
    (tree.nodes.filter fun entry => entry.1 != left).countP
        (fun entry => entry.1 == location) =
      if location = left then 0
      else tree.nodes.countP fun entry => entry.1 == location := by
  rw [List.countP_filter]
  split
  · next same =>
      rw [List.countP_eq_zero]
      rintro entry _
      by_cases here : entry.1 = location <;> simp [here, same]
  · next different =>
      refine List.countP_congr fun entry _ => ?_
      by_cases here : entry.1 = location <;> simp [here, different]

/-- A location at which something was put is listed once. -/
theorem countP_put (tree : FileTree) (changed : Location) (node : Node) (location : Location) :
    (tree.put changed node).nodes.countP (fun entry => entry.1 == location) =
      if location = changed then 1
      else tree.nodes.countP fun entry => entry.1 == location := by
  rw [put, List.countP_cons, countP_filter_nodes]
  by_cases here : location = changed
  · simp [here]
  · simp [here, Ne.symm here]

theorem edits_clock (tree : FileTree) (now : Timestamp) : Edits tree { tree with clock := now } :=
  ⟨rfl, fun _ isDirectory => isDirectory, fun _ once => once⟩

theorem edits_tick (tree : FileTree) : Edits tree tree.tick :=
  edits_clock tree _

theorem edits_countName (tree : FileTree) : Edits tree tree.countName :=
  ⟨rfl, fun _ isDirectory => isDirectory, fun _ once => once⟩

/-- Anything may be put where no directory is, and a directory anywhere. -/
theorem edits_put
    {tree : FileTree} {changed : Location} {node : Node}
    (noDirectory : node = .directory ∨ tree.node? changed ≠ some .directory) :
    Edits tree (tree.put changed node) := by
  refine ⟨rfl, fun location isDirectory => ?_, fun location once file present => ?_⟩
  · by_cases root : location = []
    · rw [root, node?_nil]
    rw [node?_put _ _ _ root]
    split
    · next here =>
        rcases noDirectory with rfl | noDirectory
        · rfl
        · exact absurd (here ▸ isDirectory) noDirectory
    · exact isDirectory
  · rw [countP_put]
    split
    · rfl
    · next elsewhere =>
        rw [node?_put_of_ne _ _ elsewhere] at present
        exact once file present

theorem edits_erase
    {tree : FileTree} {erased : Location} {file : File}
    (present : tree.node? erased = some (.file file)) :
    Edits tree (tree.erase erased) := by
  refine
    ⟨rfl, fun location => (node?_erase_eq_directory_iff present location).mpr,
      fun location once other here => ?_⟩
  have notRoot : location ≠ [] := by
    rintro rfl
    cases here
  rw [node?_erase _ _ notRoot] at here
  split at here
  · cases here
  · next elsewhere =>
      rw [erase, countP_filter_nodes, if_neg elsewhere]
      exact once other here

variable {tree changed : FileTree} {path : Path}

theorem edits_of_writeFile
    {bytes : Bytes} (succeeds : tree.writeFile path bytes = .ok changed) :
    Edits tree changed := by
  obtain ⟨rfl, noDirectory⟩ := eq_putBytes_of_writeFile succeeds
  exact (edits_tick tree).trans (edits_put (Or.inr noDirectory))

section Written

variable {bytes : Bytes} (writes : tree.writeFile path bytes = .ok changed)

include writes

/-- Only a name in a directory can be written to. -/
theorem exists_place_of_writeFile :
    ∃ parent name, tree.place path = .ok (.entry parent name false) := by
  unfold writeFile at writes
  obtain ⟨place, walked, writes⟩ := bind_eq_ok_iff.mp writes
  cases place with
  | directory location => cases writes
  | entry parent name slashed =>
      cases slashed with
      | true => cases writes
      | false => exact ⟨parent, name, walked⟩

/-- Whether a file can be written does not depend on what is written to it. -/
theorem exists_writeFile_eq_ok (others : Bytes) :
    ∃ other, tree.writeFile path others = .ok other := by
  obtain ⟨parent, name, walked⟩ := exists_place_of_writeFile writes
  obtain ⟨_, noDirectory⟩ := eq_putBytes_of_writeFile writes
  rw [← location_of_place walked, Place.location] at noDirectory
  exact ⟨_, writeFile_of_place walked noDirectory others⟩

/-- What was written can be read, and its time is that of the change. -/
theorem fileAt_of_writeFile :
    changed.fileAt path = .ok ⟨bytes, 0, changed.clock⟩ := by
  obtain ⟨parent, name, walked⟩ := exists_place_of_writeFile writes
  have location := location_of_place walked
  refine fileAt_of_place ((edits_of_writeFile writes).place walked) ?_
  rw [(eq_putBytes_of_writeFile writes).1, ← location, putBytes, node?_put _ _ _ (by simp),
    Place.location, if_pos rfl]
  rfl

/-- Where something was just written there is nothing else. -/
theorem eq_of_writeFile
    {file : File} (present : changed.node? (path.locationFrom tree.working) = some (.file file)) :
    file = ⟨bytes, 0, changed.clock⟩ := by
  have found := node?_of_fileAt (fileAt_of_writeFile writes)
  rw [(edits_of_writeFile writes).working, present] at found
  cases found
  rfl

end Written

theorem edits_of_removeFile (succeeds : tree.removeFile path = .ok changed) :
    Edits tree changed := by
  obtain ⟨rfl, file, present⟩ := eq_erase_of_removeFile succeeds
  exact edits_erase present

theorem edits_of_renameFile
    {target : Path} (succeeds : tree.renameFile path target = .ok changed) :
    Edits tree changed := by
  obtain ⟨file, place, present, _, noDirectory, rfl⟩ := eq_put_of_renameFile succeeds
  refine (edits_erase present).trans (edits_put (Or.inr ?_))
  rw [ne_eq, node?_erase_eq_directory_iff present]
  exact noDirectory

theorem edits_of_touch (succeeds : tree.touch path = .ok changed) :
    Edits tree changed := by
  obtain ⟨file, present, rfl⟩ := eq_put_of_touch succeeds
  refine (edits_tick tree).trans (edits_put (Or.inr ?_))
  rw [node?_tick, present]
  simp

/-- What can be read can be marked as changed. -/
theorem exists_touch_eq_ok {file : File} (found : tree.fileAt path = .ok file) :
    ∃ touched, tree.touch path = .ok touched := by
  have reached : tree.tick.nodeAt path = .ok (.file file) :=
    nodeAt_of_directories (edits_tick tree).directory rfl rfl (fileAt_eq_ok_iff.mp found)
  obtain ⟨place, walked⟩ := exists_place_of_nodeAt reached
  rw [touch, setModified, fileAt_eq_ok_iff.mpr reached, walked]
  exact ⟨_, rfl⟩

/-- What can be read can be removed. -/
theorem removeFile_of_fileAt {file : File} (found : tree.fileAt path = .ok file) :
    tree.removeFile path = .ok (tree.erase (path.locationFrom tree.working)) := by
  have reached := fileAt_eq_ok_iff.mp found
  obtain ⟨place, walked⟩ := exists_place_of_nodeAt reached
  rw [removeFile, reached, walked, ← location_of_place walked]
  rfl

/-- Only what can be read can be removed. -/
theorem exists_fileAt_of_removeFile (succeeds : tree.removeFile path = .ok changed) :
    ∃ file, tree.fileAt path = .ok file := by
  unfold removeFile at succeeds
  obtain ⟨node, reached, succeeds⟩ := bind_eq_ok_iff.mp succeeds
  cases node with
  | directory => cases succeeds
  | file file => exact ⟨file, fileAt_eq_ok_iff.mpr reached⟩

theorem edits_createDirectories (tree : FileTree) (path : Path) :
    Edits tree (tree.createDirectories path).1 :=
  related_createDirectories Edits.refl Edits.trans (fun _ => edits_put (Or.inl rfl)) tree path

/-- A directory that was made is there. -/
theorem nodeAt_of_createDirectory (succeeds : tree.createDirectory path = .ok changed) :
    changed.nodeAt path = .ok .directory := by
  have edits : Edits tree changed :=
    related_of_createDirectory (fun _ => edits_put (Or.inl rfl)) succeeds
  obtain ⟨parent, name, slashed, walked, _, put⟩ := exists_entry_of_createDirectory succeeds
  have present : changed.node? (parent ++ [name]) = some .directory := by
    rw [put, node?_put _ _ _ (by simp), if_pos rfl]
  rw [nodeAt, edits.place walked]
  simp only [bind, Except.bind, Place.location, present]
  rfl

theorem nodeAt_of_ensureDirectory (succeeds : tree.ensureDirectory path = .ok changed) :
    changed.nodeAt path = .ok .directory := by
  unfold ensureDirectory at succeeds
  split at succeeds
  · next created =>
      rw [← Except.ok.inj succeeds]
      exact nodeAt_of_createDirectory created
  · split at succeeds
    · next isThere =>
        rw [← Except.ok.inj succeeds]
        unfold isDirectory at isThere
        split at isThere
        · next found => exact found
        · cases isThere
    · cases succeeds

theorem edits_ensureEach (tree : FileTree) (paths : List Path) :
    Edits tree (tree.ensureEach paths).1 :=
  related_ensureEach Edits.refl Edits.trans (fun _ => edits_put (Or.inl rfl)) tree paths

/-- Directories that were made one after the other are all there. -/
theorem nodeAt_of_ensureEach
    {paths : List Path} (succeeds : tree.ensureEach paths = (changed, .ok ()))
    (member : path ∈ paths) :
    changed.nodeAt path = .ok .directory := by
  induction paths generalizing tree with
  | nil => cases member
  | cons first paths ih =>
      rw [ensureEach] at succeeds
      split at succeeds
      · next ensured made =>
          rcases List.mem_cons.mp member with rfl | later
          · have edits := edits_ensureEach ensured paths
            rw [succeeds] at edits
            exact edits.nodeAt_directory (nodeAt_of_ensureDirectory made)
          · exact ih succeeds later
      · cases succeeds

theorem nodeAt_of_createChain
    {made paths : List Path} (succeeds : tree.createChain made paths = (changed, .ok ()))
    (member : path ∈ made ∨ paths.head? = some path ∧ path.bytes ≠ []) :
    changed.nodeAt path = .ok .directory := by
  induction paths generalizing made with
  | nil =>
      rcases member with member | ⟨first, _⟩
      · exact nodeAt_of_ensureEach succeeds member
      · cases first
  | cons first paths ih =>
      rw [createChain] at succeeds
      split at succeeds
      · next empty =>
          rcases member with member | ⟨isFirst, nonempty⟩
          · exact nodeAt_of_ensureEach succeeds member
          · cases isFirst
            exact absurd (List.isEmpty_iff.mp empty) nonempty
      · split at succeeds
        · next ensured here =>
            rcases member with member | ⟨isFirst, _⟩
            · exact nodeAt_of_ensureEach succeeds member
            · cases isFirst
              have edits := edits_ensureEach ensured made
              rw [succeeds] at edits
              exact edits.nodeAt_directory (nodeAt_of_ensureDirectory here)
        · refine ih succeeds (.inl ?_)
          rcases member with member | ⟨isFirst, _⟩
          · exact List.mem_cons_of_mem _ member
          · cases isFirst
            exact List.mem_cons_self
        · cases succeeds

/-- A directory that was made with those on the way to it is there, unless its path is empty. -/
theorem nodeAt_of_createDirectories
    (nonempty : path.bytes ≠ []) (succeeds : tree.createDirectories path = (changed, .ok ())) :
    changed.nodeAt path = .ok .directory :=
  nodeAt_of_createChain succeeds (.inr ⟨rfl, nonempty⟩)

/-- Whether a change has taken some files away and nothing else. -/
structure LosesFiles (before after : FileTree) : Prop where
  working : after.working = before.working
  clock : after.clock = before.clock
  node? : ∀ location,
    after.node? location = before.node? location ∨
      after.node? location = none ∧ ∃ file, before.node? location = some (.file file)

theorem losesFiles_erase
    {erased : Location} {file : File} (present : tree.node? erased = some (.file file)) :
    LosesFiles tree (tree.erase erased) := by
  refine ⟨rfl, rfl, fun location => ?_⟩
  by_cases root : location = []
  · rw [root, node?_nil, node?_nil]
    exact Or.inl rfl
  rw [node?_erase _ _ root]
  by_cases here : location = erased
  · rw [if_pos here, here]
    exact Or.inr ⟨rfl, file, present⟩
  · exact Or.inl (if_neg here)

namespace LosesFiles

theorem refl (tree : FileTree) : LosesFiles tree tree :=
  ⟨rfl, rfl, fun _ => Or.inl rfl⟩

theorem trans
    {first second third : FileTree}
    (earlier : LosesFiles first second) (later : LosesFiles second third) :
    LosesFiles first third := by
  refine ⟨later.working.trans earlier.working, later.clock.trans earlier.clock,
    fun location => ?_⟩
  rcases later.node? location with same | ⟨gone, file, present⟩
  · rw [same]
    exact earlier.node? location
  · refine Or.inr ⟨gone, file, ?_⟩
    rcases earlier.node? location with same | ⟨gone, _⟩
    · rw [← same, present]
    · rw [present] at gone
      cases gone

variable {before after : FileTree} (loses : LosesFiles before after)

include loses

/-- What is there was there. -/
theorem node?_eq_some
    {location : Location} {node : Node} (present : after.node? location = some node) :
    before.node? location = some node := by
  rcases loses.node? location with same | ⟨gone, _⟩
  · rw [← same, present]
  · rw [present] at gone
    cases gone

/-- What can be reached could be reached. -/
theorem nodeAt {path : Path} {node : Node} (found : after.nodeAt path = .ok node) :
    before.nodeAt path = .ok node := by
  have present := node?_of_nodeAt found
  refine nodeAt_of_directories (fun _ => loses.node?_eq_some) loses.working.symm ?_ found
  rw [present]
  exact loses.node?_eq_some present

end LosesFiles

end SourcePreview.FileTree
