import SourcePreview.Proofs.Cache.Listing

/-!
# A second look changes nothing

A look through the directory discards the temporary files that were left behind, as far as they can
be removed.  What is still there afterwards cannot be removed by its path, and that stays so while
nothing happens but that more files go.  So a second look at the same moment discards nothing.
-/

namespace SourcePreview.DiskTier

open FileTree

/-- What was discarded cannot be read. -/
theorem fileAt_discard_ne_ok (tree : FileTree) (path : Path) (file : File) :
    (discard tree path).fileAt path ≠ .ok file := by
  intro reads
  have loses : LosesFiles tree (discard tree path) := losesFiles_removeTolerant tree path
  have read := fileAt_eq_ok_iff.mpr (loses.nodeAt (fileAt_eq_ok_iff.mp reads))
  have notRoot : path.locationFrom tree.working ≠ [] := by
    intro root
    have there := node?_of_fileAt read
    rw [root, node?_nil] at there
    cases there
  have present := node?_of_fileAt reads
  rw [loses.working, discard, removeTolerant, removeFile_of_fileAt read, node?_erase _ _ notRoot,
    if_pos rfl] at present
  cases present

/-- What cannot be read is not discarded. -/
theorem discard_eq_self
    {tree : FileTree} {path : Path} (unread : ∀ file, tree.fileAt path ≠ .ok file) :
    discard tree path = tree := by
  unfold discard removeTolerant
  split
  · next removed removes =>
      obtain ⟨file, reads⟩ := exists_fileAt_of_removeFile removes
      exact absurd reads (unread file)
  · rfl
  · rfl

theorem losesFiles_foldl_discard (directory : Path) (names : List String) (tree : FileTree) :
    LosesFiles tree
      (names.foldl (fun tree name => discard tree (directory.child name)) tree) :=
  related_foldl_discard LosesFiles.refl LosesFiles.trans
    (fun tree _ _ => losesFiles_removeTolerant tree _) tree

/-- None of some files that were discarded one after the other can be read, not even after more
files are gone. -/
theorem fileAt_ne_ok_of_discarded
    {directory : Path} {names : List String} {tree after : FileTree}
    (loses :
      LosesFiles
        (names.foldl (fun tree name => discard tree (directory.child name)) tree) after)
    {name : String} (member : name ∈ names) (file : File) :
    after.fileAt (directory.child name) ≠ .ok file := by
  intro reads
  induction names generalizing tree with
  | nil => cases member
  | cons first names ih =>
      rcases List.mem_cons.mp member with rfl | later
      · have whole := (losesFiles_foldl_discard directory names _).trans loses
        exact fileAt_discard_ne_ok _ _ _
          (fileAt_eq_ok_iff.mpr (whole.nodeAt (fileAt_eq_ok_iff.mp reads)))
      · exact ih loses later

theorem foldl_discard_eq_self
    {directory : Path} {names : List String} {tree : FileTree}
    (same : ∀ name ∈ names, discard tree (directory.child name) = tree) :
    names.foldl (fun tree name => discard tree (directory.child name)) tree = tree := by
  induction names with
  | nil => rfl
  | cons name names ih =>
      rw [List.forall_mem_cons] at same
      rw [List.foldl_cons, same.1]
      exact ih same.2

section Listed

variable {directory : Path} {tree other : FileTree}

/-- What is listed is below the directory. -/
theorem mem_childNames_of_listedNode?
    {name : Bytes} {node : Node} (listed : tree.listedNode? directory name = some node) :
    name ∈ tree.childNames (directory.locationFrom tree.working) :=
  mem_childNames_of_node? (node?_of_listedNode? listed)

/-- What is listed was listed before files were lost. -/
theorem listedNode?_of_losesFiles
    {name : Bytes} {node : Node} (loses : LosesFiles tree other)
    (listed : other.listedNode? directory name = some node) :
    tree.listedNode? directory name = some node := by
  obtain ⟨place, walked⟩ := exists_place_of_listedNode? listed
  have walkedBefore :=
    place_of_directories (fun _ => loses.node?_eq_some) loses.working.symm walked
  rw [listedNode?, walked] at listed
  rw [listedNode?, walkedBefore]
  exact loses.node?_eq_some listed

/-- Only a file is stale. -/
theorem exists_listedNode?_of_isStale
    {name : String} (stale : isStale directory tree name = true) :
    ∃ file, tree.listedNode? directory (Text.encode name.toList) = some (.file file) := by
  rw [isStale] at stale
  split at stale
  · next file listed => exact ⟨file, listed⟩
  · cases stale

/-- Whether a file is stale depends on what is listed and on the time alone. -/
theorem isStale_congr
    {name : String}
    (listed :
      other.listedNode? directory (Text.encode name.toList) =
        tree.listedNode? directory (Text.encode name.toList))
    (clock : other.clock = tree.clock) :
    isStale directory other name = isStale directory tree name := by
  rw [isStale, isStale, listed, clock]

end Listed

/-- A second look through the directory changes nothing, even if files are gone since the first
one. -/
theorem scan_fst_of_losesFiles
    {tier : DiskTier} {tree after : FileTree} (loses : LosesFiles (tier.scan tree).1 after) :
    (tier.scan after).1 = after := by
  have whole := (losesFiles_scan tier tree).trans loses
  cases lists : after.list tier.config.directory with
  | error failure =>
      rw [scan, lists]
  | ok files =>
      have isDirectory := nodeAt_of_list_eq_ok lists
      rw [scan, list_of_nodeAt (whole.nodeAt isDirectory)] at loses
      rw [scan, list_of_nodeAt isDirectory]
      dsimp only at loses ⊢
      refine foldl_discard_eq_self fun name member => ?_
      -- What is stale now was stale at the first look, which has tried to discard it.
      have isStale := (List.mem_filter.mp member).2
      obtain ⟨file, listed⟩ := exists_listedNode?_of_isStale isStale
      have wasListed := listedNode?_of_losesFiles whole listed
      refine discard_eq_self (fileAt_ne_ok_of_discarded loses (List.mem_filter.mpr ⟨?_, ?_⟩))
      · refine List.mem_filterMap.mpr ⟨_, mem_childNames_of_listedNode? wasListed, ?_⟩
        rw [Text.decode?_encode, Option.map_some, String.ofList_toList]
      · rwa [← isStale_congr (listed.trans wasListed.symm) whole.clock]

end SourcePreview.DiskTier
