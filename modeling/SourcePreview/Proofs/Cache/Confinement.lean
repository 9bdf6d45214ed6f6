import SourcePreview.Proofs.Cache.Storing
import SourcePreview.Proofs.Cache.Tiers
import SourcePreview.Proofs.Preview.Reading

/-!
# The disk tier keeps to its own files

The disk tier writes and removes files with the names of keys and temporary files.  A temporary file
is gone when the operation is over that it was made for, and an entry cannot be shown, because the
version in front of it has bytes zero.  So as long as the tier finds only its own files under these
names, nothing that can be shown is changed by anything that it does.
-/

namespace SourcePreview

namespace Entry

/-- A file that holds an entry cannot be shown. -/
theorem not_isText_of_bytes_eq
    {file : File} {styled : StyledText} (holds : file.bytes = encode styled) :
    ¬file.IsText := by
  rintro ⟨_, noZero⟩
  apply noZero
  have front : header.take 8192 = header := by decide
  have zero : (0 : UInt8) ∈ header := by decide
  rw [holds, encode, List.take_append, front]
  exact List.mem_append_left _ zero

end Entry

namespace FileTree

/-- The name of a temporary file is not that of an entry. -/
theorem append_temporary_ne
    {directory : Location} {name : String} (ends : name.endsWith ".tmp" = true) (key : Key) :
    directory ++ [Text.encode name.toList] ≠ directory ++ [key.fileName] := by
  intro same
  have sameName := List.singleton_inj.mp (List.append_inj_right same rfl)
  have last := DiskTier.getLast?_of_endsWith_tmp ends
  rw [sameName] at last
  have digit := Key.isNameByte_of_mem_fileName (List.mem_of_getLast? last)
  cases digit

/-- Whether a directory has, under the names of entries, only files that cannot be shown, and no
temporary file. -/
structure IsReserved (tree : FileTree) (directory : Location) : Prop where
  entries : ∀ (key : Key) file,
    tree.node? (directory ++ [key.fileName]) = some (.file file) → ¬file.IsText
  temporary : ∀ (name : String) file,
    name.endsWith ".tmp" = true →
      tree.node? (directory ++ [Text.encode name.toList]) ≠ some (.file file)

/-- Whether a change has changed nothing but files that cannot be shown and have the names of
entries of a directory. -/
structure ChangesEntries (directory : Location) (before after : FileTree) : Prop where
  working : after.working = before.working
  node? : ∀ location,
    after.node? location = before.node? location ∨
      (∃ key : Key, location = directory ++ [key.fileName]) ∧
        before.ShowsNothing location ∧ after.ShowsNothing location

section

variable {directory : Location} {first second third : FileTree}

theorem ChangesEntries.refl (tree : FileTree) : ChangesEntries directory tree tree :=
  ⟨rfl, fun _ => Or.inl rfl⟩

theorem ChangesEntries.trans
    (earlier : ChangesEntries directory first second)
    (later : ChangesEntries directory second third) :
    ChangesEntries directory first third := by
  refine ⟨later.working.trans earlier.working, fun location => ?_⟩
  rcases earlier.node? location with kept | ⟨isKey, nothing, nothingBetween⟩
  · rcases later.node? location with keptAgain | ⟨isKey, nothing, nothingAfter⟩
    · exact Or.inl (keptAgain.trans kept)
    · exact Or.inr ⟨isKey, nothing.congr kept.symm, nothingAfter⟩
  · rcases later.node? location with keptAgain | ⟨_, _, nothingAfter⟩
    · exact Or.inr ⟨isKey, nothing, nothingBetween.congr keptAgain⟩
    · exact Or.inr ⟨isKey, nothing, nothingAfter⟩

theorem ChangesEntries.showsSame
    (changes : ChangesEntries directory first second) : ShowsSame first second := by
  refine ⟨changes.working, fun location => ?_⟩
  rcases changes.node? location with kept | ⟨_, nothing, nothingAfter⟩
  · exact Or.inl kept
  · exact Or.inr ⟨nothing, nothingAfter⟩

/-- Nothing but a file that has the name of an entry may have changed. -/
theorem changesEntries_of_node?
    (working : second.working = first.working) (key : Key)
    (nothing : first.ShowsNothing (directory ++ [key.fileName]))
    (nothingAfter : second.ShowsNothing (directory ++ [key.fileName]))
    (others : ∀ location, location ≠ directory ++ [key.fileName] →
      second.node? location = first.node? location) :
    ChangesEntries directory first second := by
  refine ⟨working, fun location => ?_⟩
  by_cases here : location = directory ++ [key.fileName]
  · rw [here]
    exact Or.inr ⟨⟨key, rfl⟩, nothing, nothingAfter⟩
  · exact Or.inl (others location here)

theorem IsReserved.of_changes
    (reserved : first.IsReserved directory)
    (changes : ChangesEntries directory first second) :
    second.IsReserved directory := by
  constructor
  · intro key file present
    rcases changes.node? (directory ++ [key.fileName]) with kept | ⟨_, _, nothing⟩
    · exact reserved.entries key file (kept ▸ present)
    · obtain ⟨other, isOther, noText⟩ := nothing _ present
      cases isOther
      exact noText
  · intro name file ends present
    rcases changes.node? (directory ++ [Text.encode name.toList]) with
      kept | ⟨⟨key, same⟩, _⟩
    · exact reserved.temporary name file ends (kept ▸ present)
    · exact append_temporary_ne ends key same

theorem IsReserved.of_adds
    (reserved : first.IsReserved directory) (adds : AddsDirectories first second) :
    second.IsReserved directory := by
  have old : ∀ location file,
      second.node? location = some (.file file) → first.node? location = some (.file file) := by
    intro location file present
    rcases adds.node? location with kept | ⟨_, added⟩
    · rw [← kept, present]
    · rw [present] at added
      cases added
  constructor
  · intro key file present
    exact reserved.entries key file (old _ _ present)
  · intro name file ends present
    exact reserved.temporary name file ends (old _ _ present)

/-- Under the name of an entry a reserved directory has nothing that is shown, unless a directory is
there. -/
theorem IsReserved.showsNothing
    (reserved : first.IsReserved directory) {key : Key}
    (noDirectory : first.node? (directory ++ [key.fileName]) ≠ some .directory) :
    first.ShowsNothing (directory ++ [key.fileName]) := by
  intro node present
  cases node with
  | directory => exact absurd present noDirectory
  | file file => exact ⟨file, rfl, reserved.entries key file present⟩

/-- The file of an entry may be removed. -/
theorem IsReserved.changesEntries_erase
    (reserved : first.IsReserved directory) {key : Key}
    (noDirectory : first.node? (directory ++ [key.fileName]) ≠ some .directory) :
    ChangesEntries directory first (first.erase (directory ++ [key.fileName])) := by
  have notRoot := append_fileName_ne_nil directory key
  refine changesEntries_of_node? rfl key (reserved.showsNothing noDirectory) ?gone ?others
  case gone =>
    apply showsNothing_of_none
    rw [node?_erase _ _ notRoot, if_pos rfl]
  case others =>
    intro location elsewhere
    exact node?_erase_of_ne first elsewhere

/-- A file that cannot be shown may be put in the place of an entry. -/
theorem IsReserved.changesEntries_put
    (reserved : first.IsReserved directory) {key : Key}
    (noDirectory : first.node? (directory ++ [key.fileName]) ≠ some .directory)
    {file : File} (noText : ¬file.IsText) :
    ChangesEntries directory first (first.put (directory ++ [key.fileName]) (.file file)) := by
  have notRoot := append_fileName_ne_nil directory key
  refine changesEntries_of_node? rfl key (reserved.showsNothing noDirectory) ?present ?others
  case present =>
    apply showsNothing_of_file
    · rw [node?_put _ _ _ notRoot, if_pos rfl]
    · exact noText
  case others =>
    intro location elsewhere
    exact node?_put_of_ne first _ elsewhere

end

section Written

variable
    {tree written : FileTree} {path : Path} {bytes : Bytes}
    (writes : tree.writeFile path bytes = .ok written)

include writes

/-- What was written can be removed. -/
theorem removeFile_of_writeFile :
    written.removeFile path = .ok (written.erase (path.locationFrom tree.working)) := by
  have removes := removeFile_of_fileAt (fileAt_of_writeFile writes)
  rwa [(edits_of_writeFile writes).working] at removes

/-- What was written and is removed again leaves nothing at its location, and everything else is as
it was. -/
theorem node?_erase_of_writeFile (location : Location) :
    (written.erase (path.locationFrom tree.working)).node? location =
      if location = path.locationFrom tree.working ∧ location ≠ [] then none
      else tree.node? location := by
  rw [(eq_putBytes_of_writeFile writes).1]
  by_cases root : location = []
  · rw [if_neg fun both => both.2 root, root, node?_nil, node?_nil]
  · rw [node?_erase _ _ root]
    by_cases here : location = path.locationFrom tree.working
    · rw [if_pos here, if_pos ⟨here, root⟩]
    · rw [if_neg here, if_neg fun both => here both.1, putBytes, node?_put _ _ _ root, if_neg here,
        node?_tick]

end Written

end FileTree

namespace DiskTier

open FileTree

/-- A file that could not be written is not there to be removed. -/
theorem discard_of_writeFile_eq_error
    {tree : FileTree} {directory : Path} {name : String} {bytes : Bytes} {failure : SystemError}
    (plain : Path.IsPlainName (Text.encode name.toList))
    (fails : tree.writeFile (directory.child name) bytes = .error failure) :
    discard tree (directory.child name) = tree := by
  unfold discard removeTolerant
  split
  · next removed removes =>
      obtain ⟨_, file, present⟩ := eq_erase_of_removeFile removes
      obtain ⟨_, reads⟩ := exists_fileAt_of_removeFile removes
      obtain ⟨place, walked⟩ := exists_place_of_nodeAt (fileAt_eq_ok_iff.mp reads)
      have location := location_of_place walked
      obtain rfl := eq_entry_of_place_child plain walked
      rw [← location, Place.location] at present
      rw [writeFile, walked] at fails
      simp only [bind, Except.bind, Bool.false_eq_true, if_false, present] at fails
      cases fails
  · rfl
  · rfl

theorem isTemporaryCharacter_of_mem_probe :
    ∀ character ∈ "probe".toList, IsTemporaryCharacter character := by
  have all : ("probe".toList.all fun character => IsTemporaryCharacter character) = true := by
    decide
  intro character member
  exact of_decide_eq_true (List.all_eq_true.mp all character member)

/-- The name of a temporary file ends like one. -/
theorem endsWith_temporaryName (tree : FileTree) (name : String) :
    (temporaryName tree name).endsWith ".tmp" = true := by
  refine String.Slice.endsWith_string_iff.mpr ?_
  rw [String.copy_toSlice]
  refine ⟨("." ++ name ++ "." ++ toString tree.process ++ "." ++
    toString tree.named).toList, ?_⟩
  simp only [temporaryName, String.toList_append]

/-- A temporary file that is written in a reserved directory and removed again leaves everything as
it was. -/
theorem node?_erase_temporary
    {tree written : FileTree} {path : Path}
    (reserved : tree.IsReserved (path.locationFrom tree.working))
    {name : String} (allowed : ∀ character ∈ name.toList, IsTemporaryCharacter character)
    {bytes : Bytes}
    (writes : tree.countName.writeFile (path.child (temporaryName tree name)) bytes = .ok written)
    (location : Location) :
    (written.erase ((path.child (temporaryName tree name)).locationFrom tree.working)).node?
        location =
      tree.node? location := by
  have cleaned := node?_erase_of_writeFile writes location
  rw [working_countName, node?_countName] at cleaned
  rw [cleaned]
  split
  · next here =>
      have noDirectory := (eq_putBytes_of_writeFile writes).2
      rw [working_countName, node?_countName, ← here.1] at noDirectory
      have place := here.1
      rw [Path.locationFrom_child _ _ (isPlainName_temporaryName tree allowed)] at place
      have noFile := fun file =>
        reserved.temporary _ file (endsWith_temporaryName tree name)
      rw [← place] at noFile
      cases present : tree.node? location with
      | none => rfl
      | some node =>
          cases node with
          | directory => exact absurd present noDirectory
          | file file => exact absurd present (noFile file)
  · rfl

/-- Trying out a directory leaves everything as it was, if the directory is reserved or nothing can
be written there. -/
theorem addsDirectories_probe
    {tree : FileTree} {path : Path}
    (reserved : (probe (.plain tree) path).2.toBool = true →
      tree.IsReserved (path.locationFrom tree.working)) :
    AddsDirectories tree (probe (.plain tree) path).1.tree := by
  have plain := isPlainName_temporaryName tree isTemporaryCharacter_of_mem_probe
  have counted : AddsDirectories tree tree.countName := ⟨rfl, fun _ => Or.inl rfl⟩
  rw [probe_plain] at reserved ⊢
  cases writes :
      tree.countName.writeFile (path.child (temporaryName tree "probe"))
        (Text.encode "glance".toList) with
  | error failure =>
      dsimp only
      rw [discard_of_writeFile_eq_error plain writes]
      exact counted
  | ok written =>
      rw [writes] at reserved
      dsimp only at reserved ⊢
      rw [removeFile_of_writeFile writes] at reserved ⊢
      refine counted.trans ⟨(edits_of_writeFile writes).working, fun location => Or.inl ?_⟩
      exact node?_erase_temporary (reserved rfl) isTemporaryCharacter_of_mem_probe writes location

/-- Opening the tier adds nothing but directories, if its directory is reserved or the tier cannot
be opened. -/
theorem addsDirectories_openAt
    {tree : FileTree} {config : DiskConfig}
    (reserved : (openAt tree config).2.toBool = true →
      tree.IsReserved (config.directory.locationFrom tree.working)) :
    AddsDirectories tree (openAt tree config).1 := by
  have made := addsDirectories_createDirectories tree config.directory
  rw [openAt_eq] at reserved ⊢
  cases creates : tree.createDirectories config.directory with
  | mk changed result =>
      rw [creates] at made reserved
      cases result with
      | error failure => exact made
      | ok _ =>
          have probed :
              AddsDirectories changed (probe (.plain changed) config.directory).1.tree := by
            apply addsDirectories_probe
            intro succeeds
            rw [made.working]
            apply IsReserved.of_adds _ made
            apply reserved
            dsimp only
            split
            · next fails =>
                rw [fails] at succeeds
                cases succeeds
            · rfl
          dsimp only
          split
          all_goals
            next probes =>
              rw [probes] at probed
              exact made.trans probed

/-- Storing changes the tree as replacing a file does. -/
theorem fst_store (tier : DiskTier) (tree : FileTree) (key : Key) (styled : StyledText) :
    (tier.store tree key styled).1 =
      (replaceFile (.plain tree.countName)
        (tier.config.directory.child (temporaryName tree key.name))
        (tier.config.directory.child key.name) (Entry.encode styled)).1.tree := by
  rw [store_eq]
  split
  all_goals
    next replaces => rw [replaces]

/-- Whether a change, if it starts where the directory of a tier is reserved, changes nothing but
entries there. -/
def Confines (tier : DiskTier) (directory : Location) (before after : FileTree) : Prop :=
  tier.config.directory.locationFrom before.working = directory →
    before.IsReserved directory → ChangesEntries directory before after

theorem Confines.refl
    {tier : DiskTier} {directory : Location} (tree : FileTree) :
    tier.Confines directory tree tree :=
  fun _ _ => ChangesEntries.refl tree

theorem Confines.trans
    {tier : DiskTier} {directory : Location} {first second third : FileTree}
    (earlier : tier.Confines directory first second)
    (later : tier.Confines directory second third) :
    tier.Confines directory first third := by
  intro located reserved
  have changes := earlier located reserved
  apply changes.trans
  apply later
  · rw [changes.working, located]
  · exact reserved.of_changes changes

section Located

variable
    {tier : DiskTier} {tree : FileTree} {directory : Location}
    (located : tier.config.directory.locationFrom tree.working = directory)
    (reserved : tree.IsReserved directory)

include located reserved

theorem changesEntries_removeTolerant (key : Key) :
    ChangesEntries directory tree
      (removeTolerant tree (tier.config.directory.child key.name)).1 := by
  unfold removeTolerant
  split
  · next removed removes =>
      obtain ⟨rfl, file, present⟩ := eq_erase_of_removeFile removes
      rw [locationFrom_entry located] at present ⊢
      apply reserved.changesEntries_erase
      rw [present]
      intro isDirectory
      cases isDirectory
  · exact ChangesEntries.refl tree
  · exact ChangesEntries.refl tree

/-- Looking an entry up changes no more than its time or removes it. -/
theorem changesEntries_get (key : Key) :
    ChangesEntries directory tree (tier.get tree key).1 := by
  rw [get_eq_readEntry]
  rcases readEntry_cases tree (tier.config.directory.child key.name) with
    none | ⟨_, _, ⟨styled, touched, _, touches, found⟩ | ⟨_, _, discarded⟩⟩
  · rw [none]
    exact ChangesEntries.refl tree
  · rw [found]
    obtain ⟨file, present, rfl⟩ := eq_put_of_touch touches
    rw [locationFrom_entry located] at present ⊢
    have later : ChangesEntries directory tree tree.tick := ⟨rfl, fun _ => Or.inl rfl⟩
    apply later.trans
    apply (reserved.of_changes later).changesEntries_put
    · rw [node?_tick, present]
      intro isDirectory
      cases isDirectory
    · intro isText
      apply reserved.entries key file present
      exact (File.isText_congr (by rfl)).mp isText
  · rw [discarded]
    exact changesEntries_removeTolerant located reserved key

/-- Looking through a reserved directory finds no temporary file that was left behind. -/
theorem fst_scan_of_isReserved : (tier.scan tree).1 = tree := by
  unfold scan
  dsimp only
  split
  · rfl
  · next files lists =>
      have noneStale : ∀ name, isStale tier.config.directory tree name ≠ true := by
        intro name stale
        unfold isStale at stale
        split at stale
        · next file listed =>
            simp only [Bool.and_eq_true] at stale
            have present := node?_of_listedNode? listed
            rw [located] at present
            exact reserved.temporary name file stale.1.2 present
        · cases stale
      rw [List.filter_eq_nil_iff.mpr fun name _ => noneStale name]
      rfl

omit located reserved in
theorem confines_scan (tree : FileTree) : tier.Confines directory tree (tier.scan tree).1 := by
  intro located reserved
  rw [fst_scan_of_isReserved located reserved]
  exact ChangesEntries.refl tree

omit located reserved in
theorem confines_settle (tree : FileTree) : tier.Confines directory tree (tier.settle tree).2 :=
  related_settle Confines.refl Confines.trans
    (fun _ key located reserved => changesEntries_removeTolerant located reserved key)
    confines_scan tree

omit located reserved in
theorem confines_clear (tree : FileTree) : tier.Confines directory tree (tier.clear tree).1 :=
  related_clear Confines.refl Confines.trans
    (fun _ key located reserved => changesEntries_removeTolerant located reserved key)
    confines_scan tree

/-- Storing changes nothing but the entry of the key. -/
theorem changesEntries_store (key : Key) (styled : StyledText) :
    ChangesEntries directory tree (tier.store tree key styled).1 := by
  have allowed := fun character => @isTemporaryCharacter_of_mem_name key character
  have plain := isPlainName_temporaryName tree allowed
  rw [fst_store, replaceFile_plain]
  cases writes :
      tree.countName.writeFile (tier.config.directory.child (temporaryName tree key.name))
        (Entry.encode styled) with
  | error failure =>
      dsimp only
      rw [discard_of_writeFile_eq_error plain writes]
      exact ⟨rfl, fun _ => Or.inl rfl⟩
  | ok written =>
      have working := (edits_of_writeFile writes).working
      have cleaned :
          ChangesEntries directory tree
            (written.erase
              ((tier.config.directory.child (temporaryName tree key.name)).locationFrom
                tree.working)) := by
        refine ⟨working, fun location => Or.inl ?_⟩
        exact node?_erase_temporary (located ▸ reserved) allowed writes location
      dsimp only
      cases renames :
          written.renameFile (tier.config.directory.child (temporaryName tree key.name))
            (tier.config.directory.child key.name) with
      | error failure =>
          dsimp only
          rw [discard, removeTolerant, removeFile_of_writeFile writes]
          exact cleaned
      | ok after =>
          obtain ⟨file, _, moved, _, noDirectory, rfl⟩ := eq_put_of_renameFile renames
          rw [working, working_countName] at moved noDirectory ⊢
          rw [locationFrom_entry located] at noDirectory ⊢
          apply cleaned.trans
          apply (reserved.of_changes cleaned).changesEntries_put
          · intro isDirectory
            have notRoot := append_fileName_ne_nil directory key
            rw [node?_erase _ _ notRoot] at isDirectory
            split at isDirectory
            · cases isDirectory
            · exact noDirectory isDirectory
          · have bytes : file.bytes = Entry.encode styled := by
              rw [eq_of_writeFile writes moved]
              simp [File.bytes]
            exact Entry.not_isText_of_bytes_eq bytes

/-- Writing a preview, with the sweep that may follow, changes nothing but entries. -/
theorem changesEntries_set (key : Key) (styled : StyledText) :
    ChangesEntries directory tree (tier.set tree key styled).2 := by
  have stored := changesEntries_store located reserved key styled
  unfold set
  split
  · next stores =>
      rw [stores] at stored
      exact stored
  · next changed stores =>
      rw [stores] at stored
      apply stored.trans
      apply confines_settle
      · rw [stored.working, located]
      · exact reserved.of_changes stored

/-- Counting the entries changes nothing. -/
theorem fst_stats_of_isReserved : (tier.stats tree).1 = tree := by
  have scanned := fst_scan_of_isReserved located reserved
  unfold stats
  split
  all_goals
    next scans =>
      rw [scans] at scanned
      exact scanned

end Located

end DiskTier

namespace Cache

open FileTree

section Located

variable
    {cache : Cache} {tree : FileTree} {directory : Location}
    (isIn : cache.IsIn tree.working directory) (reserved : tree.IsReserved directory)

include isIn reserved

theorem changesEntries_lookup (key : Key) :
    ChangesEntries directory tree (cache.lookup tree key).2.1 :=
  related_lookup (ChangesEntries.refl tree) fun disk present =>
    DiskTier.changesEntries_get (isIn disk present) reserved key

theorem changesEntries_write (key : Key) (styled : StyledText) :
    ChangesEntries directory tree (cache.write tree key styled).2 := by
  cases present : cache.disk with
  | none =>
      rw [write, present]
      exact ChangesEntries.refl tree
  | some disk =>
      rw [write_of_disk present]
      dsimp only
      exact DiskTier.changesEntries_set (isIn disk present) reserved key styled

theorem changesEntries_clear : ChangesEntries directory tree (cache.clear tree).2.1 := by
  cases present : cache.disk with
  | none =>
      rw [clear, present]
      exact ChangesEntries.refl tree
  | some disk =>
      rw [clear_of_disk present]
      dsimp only
      exact DiskTier.confines_clear tree (isIn disk present) reserved

theorem fst_diskStats_of_isReserved : (cache.diskStats tree).1 = tree := by
  unfold diskStats
  split
  · rfl
  · next disk present =>
      have counted := DiskTier.fst_stats_of_isReserved (isIn disk present) reserved
      cases counts : disk.stats tree with
      | mk changed result =>
          rw [counts] at counted
          exact counted

end Located

/-- Opening a cache adds nothing but directories, if the directory of the disk tier that is opened
is reserved. -/
theorem addsDirectories_openAt
    {tree : FileTree} {memoryEntries : Nat} {disk : Option DiskConfig}
    (reserved : ∀ opened, (openAt tree memoryEntries disk).2.disk = some opened →
      tree.IsReserved (opened.config.directory.locationFrom tree.working)) :
    AddsDirectories tree (openAt tree memoryEntries disk).1 := by
  refine related_openAt (AddsDirectories.refl tree) (fun config wanted => ?_) memoryEntries
  subst wanted
  apply DiskTier.addsDirectories_openAt
  intro succeeds
  unfold openAt at reserved
  dsimp only at reserved
  cases opens : DiskTier.openAt tree config with
  | mk opened result =>
      rw [opens] at succeeds reserved
      cases result with
      | error failure => cases succeeds
      | ok tier =>
          rw [← DiskTier.config_of_openAt opens]
          exact reserved tier rfl

end Cache

end SourcePreview
