import SourcePreview.FileTree.Operations
import SourcePreview.Proofs.FileTree.Locations

/-!
# What operations change

Every operation on a file changes at most the locations that its paths name.  Making directories
puts directories where nothing is and changes nothing else.
-/

namespace SourcePreview.FileTree

@[simp]
theorem node?_nil (tree : FileTree) : tree.node? [] = some .directory := rfl

@[simp]
theorem node?_tick (tree : FileTree) (location : Location) :
    tree.tick.node? location = tree.node? location := rfl

@[simp]
theorem node?_countName (tree : FileTree) (location : Location) :
    tree.countName.node? location = tree.node? location := rfl

@[simp]
theorem working_countName (tree : FileTree) : tree.countName.working = tree.working := rfl

@[simp]
theorem place_countName (tree : FileTree) (path : Path) :
    tree.countName.place path = tree.place path := rfl

/-- Leaving out locations leaves everything else where it is. -/
theorem node?_filter
    (tree : FileTree) (keeps : Location → Bool)
    {location : Location} (notRoot : location ≠ []) :
    FileTree.node?
        { tree with nodes := tree.nodes.filter fun entry => keeps entry.1 } location =
      if keeps location then tree.node? location else none := by
  have same (entry : Location × Node) :
      decide (keeps entry.1 = true ∧ (entry.1 == location) = true) =
        (keeps location && entry.1 == location) := by
    by_cases here : entry.1 = location
    · simp [here]
    · simp [beq_eq_false_iff_ne.mpr here]
  rw [node?, node?, if_neg notRoot, if_neg notRoot, List.find?_filter]
  simp only [same]
  cases keeps location <;> simp

theorem node?_erase
    (tree : FileTree) (erased : Location)
    {location : Location} (notRoot : location ≠ []) :
    (tree.erase erased).node? location =
      if location = erased then none else tree.node? location := by
  rw [erase, node?_filter tree (· != erased) notRoot]
  by_cases here : location = erased <;> simp [here]

theorem node?_erase_of_ne
    (tree : FileTree) {erased location : Location} (elsewhere : location ≠ erased) :
    (tree.erase erased).node? location = tree.node? location := by
  by_cases root : location = []
  · rw [root, node?_nil, node?_nil]
  · rw [node?_erase _ _ root, if_neg elsewhere]

/-- Erasing a file leaves all directories. -/
theorem node?_erase_eq_directory_iff
    {tree : FileTree} {erased : Location} {file : File}
    (present : tree.node? erased = some (.file file)) (location : Location) :
    (tree.erase erased).node? location = some .directory ↔
      tree.node? location = some .directory := by
  by_cases root : location = []
  · simp [root]
  rw [node?_erase tree erased root]
  split
  · next here => simp [here, present]
  · rfl

theorem node?_eraseBelow
    (tree : FileTree) (erased : Location)
    {location : Location} (notRoot : location ≠ []) :
    (tree.eraseBelow erased).node? location =
      if erased.isPrefixOf location then none else tree.node? location := by
  rw [eraseBelow, node?_filter tree (!erased.isPrefixOf ·) notRoot]
  cases erased.isPrefixOf location <;> rfl

theorem node?_put
    (tree : FileTree) (changed : Location) (node : Node)
    {location : Location} (notRoot : location ≠ []) :
    (tree.put changed node).node? location =
      if location = changed then some node else tree.node? location := by
  by_cases here : location = changed
  · subst here
    simp [node?, put, notRoot]
  · have others := node?_filter tree (· != changed) notRoot
    rw [node?, if_neg notRoot] at others
    simp only [bne_iff_ne, ne_eq, here, not_false_eq_true, if_true] at others
    rw [if_neg here, ← others, node?, if_neg notRoot, put,
      List.find?_cons_of_neg (by simpa using Ne.symm here)]

theorem node?_put_of_ne
    (tree : FileTree) (node : Node) {changed location : Location}
    (elsewhere : location ≠ changed) :
    (tree.put changed node).node? location = tree.node? location := by
  by_cases root : location = []
  · rw [root, node?_nil, node?_nil]
  · rw [node?_put _ _ _ root, if_neg elsewhere]

/-- What is found at the end of a path is also found where there are at least the same directories
and the same is at the location of the path. -/
theorem nodeAt_of_directories
    {tree other : FileTree}
    (directories : ∀ location,
      tree.node? location = some .directory →
        other.node? location = some .directory)
    (sameWorking : other.working = tree.working) {path : Path}
    (same :
      other.node? (path.locationFrom tree.working) =
        tree.node? (path.locationFrom tree.working))
    {node : Node} (found : tree.nodeAt path = .ok node) :
    other.nodeAt path = .ok node := by
  unfold nodeAt at found ⊢
  obtain ⟨place, walked, found⟩ := bind_eq_ok_iff.mp found
  rw [← location_of_place walked] at same
  refine bind_eq_ok_iff.mpr ⟨place, place_of_directories directories sameWorking walked, ?_⟩
  rw [same]
  exact found

theorem fileAt_eq_ok_iff {tree : FileTree} {path : Path} {file : File} :
    tree.fileAt path = .ok file ↔ tree.nodeAt path = .ok (.file file) := by
  unfold fileAt
  cases tree.nodeAt path with
  | error failure => exact ⟨nofun, nofun⟩
  | ok node =>
      cases node with
      | directory => exact ⟨nofun, nofun⟩
      | file found =>
          constructor
          · intro same
            cases same
            rfl
          · intro same
            cases same
            rfl

theorem node?_of_fileAt
    {tree : FileTree} {path : Path} {file : File}
    (found : tree.fileAt path = .ok file) :
    tree.node? (path.locationFrom tree.working) = some (.file file) :=
  node?_of_nodeAt (fileAt_eq_ok_iff.mp found)

theorem fileAt_of_place
    {tree : FileTree} {path : Path} {parent : Location} {name : Bytes} {file : File}
    (walked : tree.place path = .ok (.entry parent name false))
    (present : tree.node? (parent ++ [name]) = some (.file file)) :
    tree.fileAt path = .ok file := by
  rw [fileAt_eq_ok_iff, nodeAt, walked]
  simp only [bind, Except.bind, Place.location, present]
  rfl

/-- Only a directory can be listed. -/
theorem nodeAt_of_list_eq_ok
    {tree : FileTree} {path : Path} {names : List Bytes} (lists : tree.list path = .ok names) :
    tree.nodeAt path = .ok .directory := by
  unfold list at lists
  obtain ⟨place, _, lists⟩ := bind_eq_ok_iff.mp lists
  obtain ⟨node, reached, lists⟩ := bind_eq_ok_iff.mp lists
  cases node with
  | directory => exact reached
  | file file => cases lists

/-- A directory is listed at its location. -/
theorem list_of_nodeAt
    {tree : FileTree} {path : Path} (isDirectory : tree.nodeAt path = .ok .directory) :
    tree.list path = .ok (tree.childNames (path.locationFrom tree.working)) := by
  obtain ⟨place, walked⟩ := exists_place_of_nodeAt isDirectory
  rw [list, walked]
  simp only [bind, Except.bind, isDirectory, location_of_place walked]
  rfl

/-- What is listed under a name is at that name at the location of the directory. -/
theorem listedNode?_of_place
    {tree : FileTree} {directory : Path} {place : Place}
    (walked : tree.place directory = .ok place) (name : Bytes) :
    tree.listedNode? directory name =
      tree.node? (directory.locationFrom tree.working ++ [name]) := by
  rw [listedNode?, walked, ← location_of_place walked]

/-- What is listed under a name is in a directory whose path can be walked. -/
theorem exists_place_of_listedNode?
    {tree : FileTree} {directory : Path} {name : Bytes} {node : Node}
    (listed : tree.listedNode? directory name = some node) :
    ∃ place, tree.place directory = .ok place := by
  unfold listedNode? at listed
  split at listed
  · next place walked => exact ⟨place, walked⟩
  · cases listed

theorem node?_of_listedNode?
    {tree : FileTree} {directory : Path} {name : Bytes} {node : Node}
    (listed : tree.listedNode? directory name = some node) :
    tree.node? (directory.locationFrom tree.working ++ [name]) = some node := by
  obtain ⟨place, walked⟩ := exists_place_of_listedNode? listed
  rw [← listedNode?_of_place walked, listed]

/-- Writing a file changes one location, which is that of no directory. -/
theorem eq_putBytes_of_writeFile
    {tree changed : FileTree} {path : Path} {bytes : Bytes}
    (succeeds : tree.writeFile path bytes = .ok changed) :
    changed = tree.putBytes (path.locationFrom tree.working) bytes ∧
      tree.node? (path.locationFrom tree.working) ≠ some .directory := by
  unfold writeFile at succeeds
  obtain ⟨place, walked, succeeds⟩ := bind_eq_ok_iff.mp succeeds
  rw [← location_of_place walked]
  cases place with
  | directory location => cases succeeds
  | entry parent name slashed =>
      cases slashed with
      | true => cases succeeds
      | false =>
          simp only [bind, Except.bind, Bool.false_eq_true, if_false] at succeeds
          split at succeeds
          · cases succeeds
          · next notDirectory =>
              exact ⟨(Except.ok.inj succeeds).symm, notDirectory⟩

/-- A file can be written at every name in a directory that is not the name of a directory. -/
theorem writeFile_of_place
    {tree : FileTree} {path : Path} {parent : Location} {name : Bytes}
    (walked : tree.place path = .ok (.entry parent name false))
    (noDirectory : tree.node? (parent ++ [name]) ≠ some .directory) (bytes : Bytes) :
    tree.writeFile path bytes = .ok (tree.putBytes (parent ++ [name]) bytes) := by
  rw [writeFile, walked]
  simp only [bind, Except.bind, Bool.false_eq_true, if_false]
  rfl

/-- Removing a file changes one location, which is that of a file. -/
theorem eq_erase_of_removeFile
    {tree changed : FileTree} {path : Path}
    (succeeds : tree.removeFile path = .ok changed) :
    changed = tree.erase (path.locationFrom tree.working) ∧
      ∃ file, tree.node? (path.locationFrom tree.working) = some (.file file) := by
  unfold removeFile at succeeds
  obtain ⟨node, reached, succeeds⟩ := bind_eq_ok_iff.mp succeeds
  cases node with
  | directory => cases succeeds
  | file file =>
      obtain ⟨place, walked, succeeds⟩ := bind_eq_ok_iff.mp succeeds
      rw [← location_of_place walked]
      exact
        ⟨(Except.ok.inj succeeds).symm, file,
          location_of_place walked ▸ node?_of_nodeAt reached⟩

/-- Renaming a file moves it from one location to another, which is that of no directory. -/
theorem eq_put_of_renameFile
    {tree changed : FileTree} {path target : Path}
    (succeeds : tree.renameFile path target = .ok changed) :
    ∃ file place,
      tree.node? (path.locationFrom tree.working) = some (.file file) ∧
        tree.place target = .ok place ∧
        tree.node? (target.locationFrom tree.working) ≠ some .directory ∧
        changed =
          (tree.erase (path.locationFrom tree.working)).put
            (target.locationFrom tree.working) (.file file) := by
  unfold renameFile at succeeds
  obtain ⟨file, read, succeeds⟩ := bind_eq_ok_iff.mp succeeds
  obtain ⟨source, walked, succeeds⟩ := bind_eq_ok_iff.mp succeeds
  obtain ⟨place, targetWalked, succeeds⟩ := bind_eq_ok_iff.mp succeeds
  refine ⟨file, place, node?_of_fileAt read, targetWalked, ?_⟩
  rw [← location_of_place walked, ← location_of_place targetWalked]
  cases place with
  | directory location => cases succeeds
  | entry parent name slashed =>
      dsimp only at succeeds
      split at succeeds
      · cases succeeds
      · next notDirectory =>
          cases slashed with
          | true => cases succeeds
          | false => exact ⟨notDirectory, (Except.ok.inj succeeds).symm⟩

theorem exists_place_of_renameFile
    {tree changed : FileTree} {path target : Path}
    (succeeds : tree.renameFile path target = .ok changed) :
    ∃ place, tree.place path = .ok place := by
  unfold renameFile at succeeds
  obtain ⟨_, _, succeeds⟩ := bind_eq_ok_iff.mp succeeds
  obtain ⟨place, walked, _⟩ := bind_eq_ok_iff.mp succeeds
  exact ⟨place, walked⟩

/-- What can be read can be renamed to every name in a directory that is not the name of a
directory. -/
theorem renameFile_of_place
    {tree : FileTree} {path target : Path} {file : File} {parent : Location} {name : Bytes}
    (read : tree.fileAt path = .ok file)
    (walked : tree.place target = .ok (.entry parent name false))
    (noDirectory : tree.node? (parent ++ [name]) ≠ some .directory) :
    tree.renameFile path target =
      .ok ((tree.erase (path.locationFrom tree.working)).put (parent ++ [name]) (.file file)) := by
  obtain ⟨source, sourceWalked⟩ := exists_place_of_nodeAt (fileAt_eq_ok_iff.mp read)
  rw [renameFile, read, sourceWalked, walked, ← location_of_place sourceWalked]
  simp only [bind, Except.bind, Bool.false_eq_true, if_false]
  rfl

/-- Marking a file as changed puts the same bytes where they are, with the time of the change. -/
theorem eq_put_of_touch
    {tree changed : FileTree} {path : Path}
    (succeeds : tree.touch path = .ok changed) :
    ∃ file,
      tree.node? (path.locationFrom tree.working) = some (.file file) ∧
        changed =
          tree.tick.put (path.locationFrom tree.working)
            (.file { file with modified := tree.tick.clock }) := by
  unfold touch setModified at succeeds
  obtain ⟨file, read, succeeds⟩ := bind_eq_ok_iff.mp succeeds
  obtain ⟨place, walked, succeeds⟩ := bind_eq_ok_iff.mp succeeds
  refine ⟨file, node?_of_fileAt read, ?_⟩
  rw [← Except.ok.inj succeeds, location_of_place walked]
  rfl

/-- Whether a change has put directories where nothing was, and nothing else. -/
structure AddsDirectories (before after : FileTree) : Prop where
  working : after.working = before.working
  node? : ∀ location,
    after.node? location = before.node? location ∨
      before.node? location = none ∧ after.node? location = some .directory

namespace AddsDirectories

theorem refl (tree : FileTree) : AddsDirectories tree tree :=
  ⟨rfl, fun _ => Or.inl rfl⟩

theorem begun (tree : FileTree) : AddsDirectories tree tree.begun :=
  ⟨rfl, fun _ => Or.inl rfl⟩

theorem trans
    {first second third : FileTree}
    (earlier : AddsDirectories first second)
    (later : AddsDirectories second third) :
    AddsDirectories first third := by
  refine ⟨later.working.trans earlier.working, fun location => ?_⟩
  rcases later.node? location with same | ⟨absent, added⟩
  · rw [same]
    exact earlier.node? location
  · rcases earlier.node? location with same | ⟨_, present⟩
    · exact Or.inr ⟨same ▸ absent, added⟩
    · rw [present] at absent
      cases absent

end AddsDirectories

/-- A directory that is made is put where a path leads and nothing is. -/
theorem exists_entry_of_createDirectory
    {tree changed : FileTree} {path : Path}
    (succeeds : tree.createDirectory path = .ok changed) :
    ∃ parent name slashed,
      tree.place path = .ok (.entry parent name slashed) ∧
        tree.node? (parent ++ [name]) = none ∧
          changed = tree.put (parent ++ [name]) .directory := by
  unfold createDirectory at succeeds
  obtain ⟨place, walked, succeeds⟩ := bind_eq_ok_iff.mp succeeds
  cases place with
  | directory location => cases succeeds
  | entry parent name slashed =>
      dsimp only at succeeds
      split at succeeds
      · cases succeeds
      · next absent =>
          exact ⟨parent, name, slashed, walked, absent, (Except.ok.inj succeeds).symm⟩

section CreateDirectories

-- Making directories puts one directory after the other where nothing is, so it is related to
-- what was there before by every preorder that contains these single steps.
variable
    {Related : FileTree → FileTree → Prop}
    (refl : ∀ tree, Related tree tree)
    (trans : ∀ {first second third},
      Related first second → Related second third → Related first third)
    (put : ∀ {tree : FileTree} {location},
      tree.node? location = none → Related tree (tree.put location .directory))

include put in
theorem related_of_createDirectory
    {tree changed : FileTree} {path : Path}
    (succeeds : tree.createDirectory path = .ok changed) :
    Related tree changed := by
  obtain ⟨_, _, _, _, absent, rfl⟩ := exists_entry_of_createDirectory succeeds
  exact put absent

include refl put in
theorem related_of_ensureDirectory
    {tree changed : FileTree} {path : Path}
    (succeeds : tree.ensureDirectory path = .ok changed) :
    Related tree changed := by
  unfold ensureDirectory at succeeds
  split at succeeds
  · next created =>
      rw [← Except.ok.inj succeeds]
      exact related_of_createDirectory put created
  · split at succeeds
    · rw [← Except.ok.inj succeeds]
      exact refl tree
    · cases succeeds

include refl trans put

theorem related_ensureEach (tree : FileTree) (paths : List Path) :
    Related tree (tree.ensureEach paths).1 := by
  induction paths generalizing tree with
  | nil => exact refl tree
  | cons path paths ih =>
      rw [ensureEach]
      split
      · next made =>
          exact trans (related_of_ensureDirectory refl put made) (ih _)
      · exact refl tree

theorem related_createChain
    (tree : FileTree) (made paths : List Path) :
    Related tree (tree.createChain made paths).1 := by
  induction paths generalizing made with
  | nil => exact related_ensureEach refl trans put tree made
  | cons path paths ih =>
      rw [createChain]
      split
      · exact related_ensureEach refl trans put tree made
      · split
        · next created =>
            exact
              trans (related_of_ensureDirectory refl put created)
                (related_ensureEach refl trans put _ made)
        · exact ih (path :: made)
        · exact refl tree

theorem related_createDirectories (tree : FileTree) (path : Path) :
    Related tree (tree.createDirectories path).1 :=
  related_createChain refl trans put tree [] (path :: path.ancestors)

end CreateDirectories

theorem addsDirectories_put
    {tree : FileTree} {added : Location} (absent : tree.node? added = none) :
    AddsDirectories tree (tree.put added .directory) := by
  refine ⟨rfl, fun location => ?_⟩
  by_cases root : location = []
  · rw [root]
    exact Or.inl rfl
  rw [node?_put _ _ _ root]
  split
  · next here => exact Or.inr ⟨here ▸ absent, rfl⟩
  · exact Or.inl rfl

/-- Making directories on the way to one changes nothing else. -/
theorem addsDirectories_createDirectories (tree : FileTree) (path : Path) :
    AddsDirectories tree (tree.createDirectories path).1 :=
  related_createDirectories AddsDirectories.refl AddsDirectories.trans addsDirectories_put
    tree path

end SourcePreview.FileTree
