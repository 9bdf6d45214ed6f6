import SourcePreview.Proofs.FileTree.Edits
import Mathlib.Data.List.Nodup

/-!
# Directories and the names in them

What a directory lists is what is at the names below its location, each as often as its location is
in the tree.  A path that goes on with a name leads through the directory in front of the name, so
what is at its end is listed there.
-/

namespace SourcePreview.FileTree

/-- A name is listed in a directory as often as its location is in the tree. -/
theorem count_childNames (tree : FileTree) (directory : Location) (name : Bytes) :
    (tree.childNames directory).count name =
      tree.nodes.countP fun entry => entry.1 == directory ++ [name] := by
  rw [childNames, List.count_filterMap]
  refine List.countP_congr fun entry _ => ?_
  rw [beq_iff_eq, beq_iff_eq]
  constructor
  · intro found
    split at found
    · next parent =>
        obtain ⟨front, split⟩ := List.getLast?_eq_some_iff.mp found
        rw [split, List.dropLast_concat] at parent
        rw [split, parent]
    · cases found
  · intro here
    simp [here]

theorem exists_mem_nodes_of_node?
    {tree : FileTree} {location : Location} {node : Node}
    (notRoot : location ≠ []) (present : tree.node? location = some node) :
    ∃ entry ∈ tree.nodes, entry.1 = location := by
  rw [node?, if_neg notRoot, Option.map_eq_some_iff] at present
  obtain ⟨entry, found, _⟩ := present
  exact ⟨entry, List.mem_of_find?_eq_some found, by simpa using List.find?_some found⟩

/-- Where no location is in the tree twice, every file is listed once. -/
theorem listsOnce_of_nodup
    {tree : FileTree} (nodup : (tree.nodes.map Prod.fst).Nodup) (location : Location) :
    tree.ListsOnce location := by
  intro file present
  have notRoot : location ≠ [] := by
    rintro rfl
    cases present
  obtain ⟨entry, member, rfl⟩ := exists_mem_nodes_of_node? notRoot present
  have once := List.count_eq_one_of_mem nodup (List.mem_map_of_mem member)
  rwa [List.count, List.countP_map] at once

/-- What is in a directory is listed there. -/
theorem mem_childNames_of_node?
    {tree : FileTree} {directory : Location} {name : Bytes} {node : Node}
    (present : tree.node? (directory ++ [name]) = some node) :
    name ∈ tree.childNames directory := by
  obtain ⟨entry, member, here⟩ := exists_mem_nodes_of_node? (by simp) present
  rw [← List.count_pos_iff, count_childNames, List.countP_pos_iff]
  exact ⟨entry, member, by simp [here]⟩

/-- What is listed in a directory is there. -/
theorem exists_node?_of_mem_childNames
    {tree : FileTree} {directory : Location} {name : Bytes}
    (listed : name ∈ tree.childNames directory) :
    ∃ node, tree.node? (directory ++ [name]) = some node := by
  rw [← List.count_pos_iff, count_childNames, List.countP_pos_iff] at listed
  obtain ⟨entry, member, here⟩ := listed
  rw [node?, if_neg (by simp)]
  cases found : tree.nodes.find? fun entry => entry.1 == directory ++ [name] with
  | none => exact (List.find?_eq_none.mp found entry member here).elim
  | some other => exact ⟨other.2, rfl⟩

/-- Only a directory can be entered by its name. -/
theorem directory_of_enter
    {tree : FileTree} {location reached : Location} {name : Bytes}
    (plain : Path.IsPlainName name) (entered : tree.enter location name = .ok reached) :
    name.length ≤ longestName ∧ tree.node? (location ++ [name]) = some .directory := by
  simp only [enter, plain.isEntry] at entered
  split at entered
  · cases entered
  · next short =>
      split at entered
      · next present => exact ⟨Nat.le_of_not_lt short, present⟩
      all_goals cases entered

section Below

variable
    {tree : FileTree} {directory : Path} {name : String}
    (plain : Path.IsPlainName (Text.encode name.toList))

include plain

/-- A name below a directory is walked to through the directory. -/
theorem enters_of_place_child
    {place : Place} (found : tree.place (directory.child name) = .ok place) :
    0 ∉ directory.bytes ∧ tree.Enters directory := by
  obtain ⟨noZero, _, _, walked⟩ := place_eq_ok_iff.mp found
  obtain ⟨between, _, bytes⟩ := Path.exists_bytes_child directory
  obtain ⟨pieces, split, sameStart, empties, directoryIs, empty⟩ :=
    Path.exists_piecesFrom_child directory plain
  rw [split, sameStart, walk_append_singleton _ _ _ plain.ne_nil] at walked
  obtain ⟨location, steps, _⟩ := bind_eq_ok_iff.mp walked
  refine ⟨?_, location, ?_⟩
  · rw [bytes plain] at noZero
    simp only [List.contains_eq_mem, List.mem_append, decide_eq_false_iff_not, not_or] at noZero
    exact noZero.1.1
  · rw [directoryIs, List.foldlM_append, steps]
    exact foldlM_enter_of_all_isEmpty tree empty location

/-- A path to a directory that can be entered leads to the directory. -/
theorem nodeAt_child_of_enters
    (enters : tree.Enters (directory.child name)) (noZero : 0 ∉ (directory.child name).bytes)
    (short : (directory.child name).bytes.length ≤ longestPath) :
    tree.nodeAt (directory.child name) = .ok .directory := by
  obtain ⟨reached, entered⟩ := enters
  obtain ⟨between, _, bytes⟩ := Path.exists_bytes_child directory
  obtain ⟨pieces, split, sameStart, -⟩ := Path.exists_piecesFrom_child directory plain
  rw [split, sameStart, List.foldlM_append] at entered
  obtain ⟨location, steps, goesOn⟩ := bind_eq_ok_iff.mp entered
  rw [List.foldlM_cons] at goesOn
  obtain ⟨_, goesOn, _⟩ := bind_eq_ok_iff.mp goesOn
  obtain ⟨shortName, present⟩ := directory_of_enter plain goesOn
  have walked :
      tree.place (directory.child name) =
        .ok (.entry location (Text.encode name.toList) false) := by
    refine place_eq_ok_iff.mpr ⟨by simpa using noZero, ?_, short, ?_⟩
    · simp [bytes plain, plain.ne_nil]
    · rw [split, sameStart, walk_append_singleton _ _ _ plain.ne_nil, steps]
      simp only [Except.bind, lastPlace, plain.isEntry,
        if_neg (Nat.not_lt.mpr shortName)]
  simp only [nodeAt, walked, bind, Except.bind, Place.location, present]
  rfl

/-- What is at a name below a directory is listed there, if the directory is itself at a name. -/
theorem exists_list_of_nodeAt_child
    {folder : String} (folderPlain : Path.IsPlainName (Text.encode folder.toList)) {node : Node}
    (present : tree.nodeAt ((directory.child folder).child name) = .ok node) :
    ∃ names,
      tree.list (directory.child folder) = .ok names ∧ Text.encode name.toList ∈ names := by
  obtain ⟨place, walked⟩ := exists_place_of_nodeAt present
  obtain ⟨noZero, enters⟩ := enters_of_place_child plain walked
  obtain ⟨between, _, bytes⟩ := Path.exists_bytes_child (directory.child folder)
  have short := (place_eq_ok_iff.mp walked).2.2.1
  rw [bytes plain, List.append_assoc, List.length_append] at short
  have isDirectory := nodeAt_child_of_enters folderPlain enters noZero (by omega)
  have here := node?_of_nodeAt present
  rw [Path.locationFrom_child _ _ plain] at here
  exact ⟨_, list_of_nodeAt isDirectory, mem_childNames_of_node? here⟩

end Below

/-- What is found at the end of a path has a path that can be walked. -/
theorem length_le_of_isPresent {tree : FileTree} {path : Path} (present : tree.isPresent path) :
    path.bytes.length ≤ longestPath := by
  cases found : tree.nodeAt path with
  | error failure =>
      rw [isPresent, found] at present
      cases present
  | ok node =>
      obtain ⟨place, walked⟩ := exists_place_of_nodeAt found
      exact (place_eq_ok_iff.mp walked).2.2.1

end SourcePreview.FileTree
