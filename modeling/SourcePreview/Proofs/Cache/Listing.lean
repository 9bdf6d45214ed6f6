import SourcePreview.Proofs.Cache.Disk
import SourcePreview.Proofs.FileTree.Directories

/-!
# What the disk tier lists

No operation of the disk tier takes a directory away.  So as long as the directory of the tier was
there, and the tier's own files are the only ones with the names of entries, a look through the
directory shows every entry once and nothing else.  The entries are then counted exactly, and
clearing removes exactly these.
-/

namespace SourcePreview

namespace DiskTier

open FileTree

theorem edits_removeTolerant (tree : FileTree) (path : Path) :
    Edits tree (removeTolerant tree path).1 := by
  unfold removeTolerant
  split
  · next removes => exact edits_of_removeFile removes
  · exact Edits.refl tree
  · exact Edits.refl tree

theorem edits_discard (tree : FileTree) (path : Path) : Edits tree (discard tree path) :=
  edits_removeTolerant tree path

theorem edits_openAt (tree : FileTree) (config : DiskConfig) :
    Edits tree (openAt tree config).1 :=
  related_openAt Edits Edits.trans edits_countName (fun _ writes => edits_of_writeFile writes)
    (fun tree _ _ => edits_discard tree _) rfl (edits_createDirectories tree config.directory)

theorem edits_get (tier : DiskTier) (tree : FileTree) (key : Key) :
    Edits tree (tier.get tree key).1 := by
  rw [get_eq_readEntry]
  rcases readEntry_cases tree (tier.config.directory.child key.name) with
    none | ⟨file, _, ⟨styled, touched, _, touches, found⟩ | ⟨_, _, discarded⟩⟩
  · rw [none]
    exact Edits.refl tree
  · rw [found]
    exact edits_of_touch touches
  · rw [discarded]
    exact edits_discard tree _

theorem edits_store (tier : DiskTier) (tree : FileTree) (key : Key) (styled : StyledText) :
    Edits tree (tier.store tree key styled).1 := by
  cases stores : tier.store tree key styled with
  | mk after result =>
      cases result with
      | error failure =>
          exact
            related_of_store_eq_error Edits Edits.trans edits_countName
              (fun _ writes => edits_of_writeFile writes) (fun tree _ _ => edits_discard tree _)
              rfl stores
      | ok _ =>
          obtain ⟨written, writes, renames⟩ := exists_of_store_eq_ok stores
          exact
            (edits_countName tree).trans
              ((edits_of_writeFile writes).trans (edits_of_renameFile renames))

theorem edits_scan (tier : DiskTier) (tree : FileTree) : Edits tree (tier.scan tree).1 :=
  related_scan Edits.refl Edits.trans (fun tree _ _ => edits_removeTolerant tree _) tree

theorem edits_cleanup (tier : DiskTier) (tree : FileTree) :
    Edits tree (tier.cleanup tree).1 :=
  related_cleanup Edits.refl Edits.trans (fun tree _ => edits_removeTolerant tree _)
    (edits_scan tier) tree

theorem edits_settle (tier : DiskTier) (tree : FileTree) :
    Edits tree (tier.settle tree).2 :=
  related_settle Edits.refl Edits.trans (fun tree _ => edits_removeTolerant tree _)
    (edits_scan tier) tree

theorem edits_clear (tier : DiskTier) (tree : FileTree) :
    Edits tree (tier.clear tree).1 :=
  related_clear Edits.refl Edits.trans (fun tree _ => edits_removeTolerant tree _)
    (edits_scan tier) tree

theorem losesFiles_removeTolerant (tree : FileTree) (path : Path) :
    LosesFiles tree (removeTolerant tree path).1 := by
  unfold removeTolerant
  split
  · next removed removes =>
      obtain ⟨rfl, file, present⟩ := eq_erase_of_removeFile removes
      exact losesFiles_erase present
  · exact LosesFiles.refl tree
  · exact LosesFiles.refl tree

theorem losesFiles_scan (tier : DiskTier) (tree : FileTree) :
    LosesFiles tree (tier.scan tree).1 :=
  related_scan LosesFiles.refl LosesFiles.trans
    (fun tree _ _ => losesFiles_removeTolerant tree _) tree

theorem Reaches.of_edits
    {tier : DiskTier} {before after : FileTree} {directory : Location} {key : Key}
    (reaches : tier.Reaches before directory key) (edits : Edits before after) :
    tier.Reaches after directory key :=
  edits.place reaches

/-- The entry file with a name and the key that it belongs to. -/
def keyedFile? (directory : Path) (tree : FileTree) (name : String) : Option (Key × File) :=
  match tree.nodeAt (directory.child name) with
  | .ok (.file file) => (Key.ofName? name).map fun key => (key, file)
  | _ => none

/-- What a look at the directory shows of the file of a key. -/
def scannedEntry (directory : Path) (keyed : Key × File) : ScannedEntry :=
  ⟨directory.child keyed.1.name, keyed.2.size, keyed.2.modified⟩

theorem keyedFile?_eq_some_iff
    {directory : Path} {tree : FileTree} {name : String} {key : Key} {file : File} :
    keyedFile? directory tree name = some (key, file) ↔
      name = key.name ∧ tree.nodeAt (directory.child key.name) = .ok (.file file) := by
  unfold keyedFile?
  constructor
  · intro found
    split at found
    · next present =>
        obtain ⟨other, read, same⟩ := Option.map_eq_some_iff.mp found
        cases same
        obtain rfl := Key.ofName?_eq_some_iff.mp read
        exact ⟨rfl, present⟩
    · cases found
  · rintro ⟨rfl, present⟩
    rw [present]
    simp [Key.ofName?_eq_some_iff.mpr rfl]

theorem totalSize_map_scannedEntry (directory : Path) (entries : List (Key × File)) :
    Eviction.totalSize (entries.map (scannedEntry directory)) =
      (entries.map fun entry => entry.2.size).sum := by
  induction entries with
  | nil => rfl
  | cons entry entries ih =>
      rw [List.map_cons, List.map_cons, List.sum_cons, ← ih]
      rfl

/-- The entry files that a look through the directory finds, with their keys. -/
def listing (tier : DiskTier) (tree : FileTree) (directory : Location) : List (Key × File) :=
  (tree.childNames directory).filterMap fun bytes =>
    (Text.decode? bytes).bind fun characters =>
      keyedFile? tier.config.directory tree (String.ofList characters)

/-- Whether some files are those of all keys that have an entry in a directory, each once. -/
structure IsListing
    (tree : FileTree) (directory : Location) (listing : List (Key × File)) : Prop where
  nodup : (listing.map Prod.fst).Nodup
  mem_iff : ∀ {key file},
    (key, file) ∈ listing ↔
      tree.node? (directory ++ [key.fileName]) = some (.file file)

theorem IsListing.mem_keys_iff
    {tree : FileTree} {directory : Location} {listing : List (Key × File)}
    (isListing : IsListing tree directory listing) {key : Key} :
    key ∈ listing.map Prod.fst ↔ (tree.entryAt? directory key).isSome := by
  rw [List.mem_map, Option.isSome_iff_exists]
  constructor
  · rintro ⟨⟨_, file⟩, member, rfl⟩
    exact ⟨_, entryAt?_eq_some_iff.mpr ⟨file, isListing.mem_iff.mp member, rfl⟩⟩
  · rintro ⟨bytes, entry⟩
    obtain ⟨file, present, _⟩ := entryAt?_eq_some_iff.mp entry
    exact ⟨_, isListing.mem_iff.mpr present, rfl⟩

/-- Whether the entries of a tier are listed once and can be walked to. -/
structure IsOrderly (tier : DiskTier) (tree : FileTree) (directory : Location) : Prop where
  located : tier.config.directory.locationFrom tree.working = directory
  listsOnce : ∀ key : Key, tree.ListsOnce (directory ++ [key.fileName])
  reaches : ∀ key, (tree.entryAt? directory key).isSome → tier.Reaches tree directory key

/-- Only a directory that is there can be looked through. -/
theorem nodeAt_of_scan_eq_ok
    {tier : DiskTier} {tree scanned : FileTree} {entries : List ScannedEntry}
    (scans : tier.scan tree = (scanned, .ok entries)) :
    tree.nodeAt tier.config.directory = .ok .directory := by
  unfold scan at scans
  dsimp only at scans
  split at scans
  · cases scans
  · next files listed => exact nodeAt_of_list_eq_ok listed

/-- Only a directory that is there can be cleared. -/
theorem nodeAt_of_clear_eq_ok
    {tier : DiskTier} {tree cleared : FileTree} {count : Nat}
    (clears : tier.clear tree = (cleared, .ok count)) :
    tree.nodeAt tier.config.directory = .ok .directory := by
  unfold clear at clears
  split at clears
  · cases clears
  · next scans => exact nodeAt_of_scan_eq_ok scans

section Orderly

variable
    {tier : DiskTier} {tree : FileTree} {directory : Location}
    (orderly : tier.IsOrderly tree directory)

include orderly

/-- A directory that is in order stays so when files go. -/
theorem IsOrderly.of_losesFiles
    {after : FileTree} (edits : Edits tree after) (loses : LosesFiles tree after) :
    tier.IsOrderly after directory where
  located := by rw [edits.working, orderly.located]
  listsOnce key := edits.listsOnce _ (orderly.listsOnce key)
  reaches key isSome := by
    obtain ⟨bytes, entry⟩ := Option.isSome_iff_exists.mp isSome
    obtain ⟨file, present, same⟩ := entryAt?_eq_some_iff.mp entry
    refine (orderly.reaches key ?_).of_edits edits
    rw [entryAt?_eq_some_iff.mpr ⟨file, loses.node?_eq_some present, same⟩]
    rfl

theorem IsOrderly.nodeAt_eq_file_iff {key : Key} {file : File} :
    tree.nodeAt (tier.config.directory.child key.name) = .ok (.file file) ↔
      tree.node? (directory ++ [key.fileName]) = some (.file file) := by
  rw [← locationFrom_entry orderly.located]
  constructor
  · exact node?_of_nodeAt
  · intro present
    rw [locationFrom_entry orderly.located] at present
    have reaches :=
      orderly.reaches key (by rw [entryAt?_eq_some_iff.mpr ⟨file, present, rfl⟩]; rfl)
    rw [nodeAt, reaches]
    simp only [bind, Except.bind, Place.location, present]
    rfl

/-- What is listed are the entries that are there. -/
theorem IsOrderly.isListing_listing : IsListing tree directory (tier.listing tree directory) := by
  have mem_iff {key : Key} {file : File} :
      (key, file) ∈ tier.listing tree directory ↔
        tree.node? (directory ++ [key.fileName]) = some (.file file) := by
    rw [listing, List.mem_filterMap]
    constructor
    · rintro ⟨bytes, _, found⟩
      obtain ⟨characters, _, keyed⟩ := Option.bind_eq_some_iff.mp found
      exact orderly.nodeAt_eq_file_iff.mp (keyedFile?_eq_some_iff.mp keyed).2
    · intro present
      refine ⟨key.fileName, mem_childNames_of_node? present, ?_⟩
      rw [Key.decode?_eq_name_iff.mpr rfl, Option.bind_some, String.ofList_toList,
        keyedFile?_eq_some_iff]
      exact ⟨rfl, orderly.nodeAt_eq_file_iff.mpr present⟩
  refine ⟨List.nodup_iff_count_le_one.mpr fun key => ?_, mem_iff⟩
  by_cases member : key ∈ (tier.listing tree directory).map Prod.fst
  · obtain ⟨⟨_, file⟩, inside, rfl⟩ := List.mem_map.mp member
    have once := orderly.listsOnce _ file (mem_iff.mp inside)
    rw [← count_childNames] at once
    rw [← once, listing, List.map_filterMap, List.count_filterMap, List.count]
    refine List.countP_mono_left fun bytes _ found => ?_
    rw [beq_iff_eq, Option.map_eq_some_iff] at found
    obtain ⟨⟨other, otherFile⟩, isFound, same⟩ := found
    obtain ⟨characters, decodes, keyed⟩ := Option.bind_eq_some_iff.mp isFound
    have written := congrArg String.toList (keyedFile?_eq_some_iff.mp keyed).1
    rw [String.toList_ofList] at written
    rw [beq_iff_eq, ← Key.decode?_eq_name_iff, decodes, written]
    exact congrArg (fun key => some key.name.toList) same
  · rw [List.count_eq_zero_of_not_mem member]
    exact Nat.zero_le 1

/-- Looked at from the directory or along its own path, the file of a key is the same. -/
theorem IsOrderly.scannedFile?_eq
    {place : Place} (walked : tree.place tier.config.directory = .ok place) (name : String) :
    scannedFile? tier.config.directory tree name =
      (keyedFile? tier.config.directory tree name).map
        (scannedEntry tier.config.directory) := by
  have listed := listedNode?_of_place walked (Text.encode name.toList)
  rw [orderly.located] at listed
  rw [scannedFile?, listed]
  by_cases isName : Key.isName name = true
  · obtain ⟨key, _, rfl⟩ := Key.exists_ofName?_of_isName isName
    cases keyed : keyedFile? tier.config.directory tree key.name with
    | some found =>
        obtain ⟨other, file⟩ := found
        obtain ⟨same, present⟩ := keyedFile?_eq_some_iff.mp keyed
        obtain rfl := Key.name_injective same
        have here := orderly.nodeAt_eq_file_iff.mp present
        rw [Key.fileName] at here
        rw [here]
        simp [isName, scannedEntry]
    | none =>
        split
        · next file present =>
            have found := keyedFile?_eq_some_iff.mpr
              ⟨rfl, orderly.nodeAt_eq_file_iff.mpr present⟩
            rw [keyed] at found
            cases found
        · rfl
  · have unread := Key.ofName?_of_not_isName isName
    have unkeyed : keyedFile? tier.config.directory tree name = none := by
      rw [keyedFile?, unread]
      split <;> rfl
    rw [unkeyed]
    split
    · rw [if_neg isName]
      rfl
    · rfl

/-- A look through the directory shows all entries, each once, and nothing else. -/
theorem IsOrderly.scan_snd
    (isDirectory : tree.nodeAt tier.config.directory = .ok .directory) :
    (tier.scan tree).2 =
      .ok ((tier.listing tree directory).map (scannedEntry tier.config.directory)) := by
  obtain ⟨place, walked⟩ := exists_place_of_nodeAt isDirectory
  have listed := list_of_nodeAt isDirectory
  rw [orderly.located] at listed
  rw [scan, listed]
  simp only [listing, List.filterMap_filterMap, List.map_filterMap, Except.ok.injEq]
  refine List.filterMap_congr fun bytes _ => ?_
  cases Text.decode? bytes with
  | none => rfl
  | some characters => exact orderly.scannedFile?_eq walked _

/-- The entries are counted exactly. -/
theorem IsOrderly.stats_snd
    (isDirectory : tree.nodeAt tier.config.directory = .ok .directory) :
    (tier.stats tree).2 =
      .ok ⟨(tier.listing tree directory).length,
        ((tier.listing tree directory).map fun entry => entry.2.size).sum⟩ := by
  have scans := orderly.scan_snd isDirectory
  unfold stats
  split
  · next fails =>
      rw [fails] at scans
      cases scans
  · next scanned =>
      rw [scanned] at scans
      cases scans
      rw [List.length_map, totalSize_map_scannedEntry]

/-- An entry that is there can be removed, which leaves the others as they are. -/
theorem IsOrderly.removeTolerant_entry
    {key : Key} (isSome : (tree.entryAt? directory key).isSome) :
    ∃ after,
      removeTolerant tree (tier.config.directory.child key.name) = (after, .ok true) ∧
        tier.IsOrderly after directory ∧
        ∀ other, after.entryAt? directory other =
          if other = key then none else tree.entryAt? directory other := by
  obtain ⟨bytes, entry⟩ := Option.isSome_iff_exists.mp isSome
  obtain ⟨file, present, _⟩ := entryAt?_eq_some_iff.mp entry
  have removes :=
    removeFile_of_fileAt (fileAt_eq_ok_iff.mpr (orderly.nodeAt_eq_file_iff.mpr present))
  rw [locationFrom_entry orderly.located] at removes
  have node (other : Key) :=
    node?_erase tree (directory ++ [key.fileName]) (append_fileName_ne_nil directory other)
  simp only [append_fileName_inj] at node
  refine ⟨tree.erase (directory ++ [key.fileName]), ?_,
    orderly.of_losesFiles (edits_erase present) (losesFiles_erase present), fun other => ?_⟩
  · rw [removeTolerant, removes]
  · split
    · next same => exact entryAt?_eq_none ((node other).trans (if_pos same))
    · next different => exact entryAt?_congr ((node other).trans (if_neg different))

/-- The first look at an entry that cannot be decoded removes it and leaves the others. -/
theorem IsOrderly.get_of_undecodable
    {key : Key} {bytes : Bytes} (entry : tree.entryAt? directory key = some bytes)
    {failure : Entry.DecodeError} (undecodable : Entry.decode bytes = .error failure) :
    ∃ after,
      tier.get tree key = (after, none) ∧
        ∀ other, after.entryAt? directory other =
          if other = key then none else tree.entryAt? directory other := by
  obtain ⟨file, present, rfl⟩ := entryAt?_eq_some_iff.mp entry
  have isSome : (tree.entryAt? directory key).isSome := by
    rw [entry]
    rfl
  obtain ⟨after, removes, _, left⟩ := orderly.removeTolerant_entry isSome
  refine ⟨after, ?_, left⟩
  rw [get_eq_readEntry, readEntry_eq, fileAt_of_place (orderly.reaches key isSome) present]
  dsimp only
  rw [undecodable]
  dsimp only
  rw [discard, removes]

/-- The first of some entries can be removed, which leaves the others of them. -/
theorem IsOrderly.removeTolerant_first
    {entry : Key × File} {entries : List (Key × File)}
    (nodup : ((entry :: entries).map Prod.fst).Nodup)
    (present : ∀ key ∈ (entry :: entries).map Prod.fst, (tree.entryAt? directory key).isSome) :
    ∃ after,
      removeTolerant tree (scannedEntry tier.config.directory entry).path = (after, .ok true) ∧
        tier.IsOrderly after directory ∧
        (∀ key ∈ entries.map Prod.fst, (after.entryAt? directory key).isSome) ∧
        ∀ other, after.entryAt? directory other =
          if other = entry.1 then none else tree.entryAt? directory other := by
  rw [List.map_cons, List.nodup_cons] at nodup
  rw [List.map_cons, List.forall_mem_cons] at present
  obtain ⟨after, removes, stillOrderly, left⟩ := orderly.removeTolerant_entry present.1
  refine ⟨after, removes, stillOrderly, fun key member => ?_, left⟩
  rw [left, if_neg]
  · exact present.2 key member
  · rintro rfl
    exact nodup.1 member

end Orderly

/-- Whether the entries of some keys are gone from a directory and all others are kept. -/
def Removes (directory : Location) (keys : List Key) (tree after : FileTree) : Prop :=
  ∀ key, after.entryAt? directory key =
    if key ∈ keys then none else tree.entryAt? directory key

theorem Removes.nil (directory : Location) (tree : FileTree) :
    Removes directory [] tree tree := by
  intro key
  rw [if_neg List.not_mem_nil]

theorem Removes.cons
    {directory : Location} {key : Key} {keys : List Key} {tree middle after : FileTree}
    (first : ∀ other, middle.entryAt? directory other =
      if other = key then none else tree.entryAt? directory other)
    (rest : Removes directory keys middle after) :
    Removes directory (key :: keys) tree after := by
  intro other
  rw [rest other, first other]
  by_cases same : other = key
  · simp [same]
  · rw [if_neg same]
    exact if_congr (by rw [List.mem_cons, or_iff_right same]) rfl rfl

/-- Removing some entries leaves the others. -/
theorem removeEach_scannedEntry
    {tier : DiskTier} {tree : FileTree} {directory : Location}
    (orderly : tier.IsOrderly tree directory)
    {entries : List (Key × File)} (nodup : (entries.map Prod.fst).Nodup)
    (present : ∀ key ∈ entries.map Prod.fst, (tree.entryAt? directory key).isSome)
    (count : Nat) :
    ∃ after,
      removeEach none count (entries.map (scannedEntry tier.config.directory)) tree =
          (after, .ok (count + entries.length)) ∧
        Removes directory (entries.map Prod.fst) tree after := by
  induction entries generalizing tree count with
  | nil => exact ⟨tree, rfl, Removes.nil directory tree⟩
  | cons entry entries ih =>
      obtain ⟨removed, removes, stillOrderly, others, left⟩ :=
        orderly.removeTolerant_first nodup present
      obtain ⟨after, removesOthers, leftOver⟩ :=
        ih stillOrderly nodup.of_cons others (count + 1)
      refine ⟨after, ?_, Removes.cons left leftOver⟩
      rw [List.map_cons, removeEach, removes]
      dsimp only
      rw [removesOthers, List.length_cons, Nat.add_right_comm, Nat.add_assoc]

/-- Looking through the directory leaves it in order. -/
theorem IsOrderly.scan
    {tier : DiskTier} {tree : FileTree} {directory : Location}
    (orderly : tier.IsOrderly tree directory) :
    tier.IsOrderly (tier.scan tree).1 directory :=
  orderly.of_losesFiles (edits_scan tier tree) (losesFiles_scan tier tree)

/-- Clearing leaves no entry and counts those that were there. -/
theorem IsOrderly.clear_spec
    {tier : DiskTier} {tree : FileTree} {directory : Location}
    (orderly : tier.IsOrderly tree directory)
    (isDirectory : tree.nodeAt tier.config.directory = .ok .directory) :
    ∃ after,
      tier.clear tree = (after, .ok (tier.listing tree directory).length) ∧
        ∀ key, after.entryAt? directory key = none := by
  have listing := orderly.isListing_listing
  have keeps := keepsEntries_scan tier tree directory
  have present :
      ∀ key ∈ (tier.listing tree directory).map Prod.fst,
        ((tier.scan tree).1.entryAt? directory key).isSome := by
    intro key member
    rw [keeps.entryAt?]
    exact listing.mem_keys_iff.mp member
  obtain ⟨after, removes, left⟩ :=
    removeEach_scannedEntry orderly.scan listing.nodup present 0
  refine ⟨after, ?_, fun key => ?_⟩
  · have scans : tier.scan tree = ((tier.scan tree).1, (tier.scan tree).2) := rfl
    rw [orderly.scan_snd isDirectory] at scans
    rw [clear, scans]
    dsimp only
    rw [removes, Nat.zero_add]
  · rw [left key, keeps.entryAt?]
    split
    · rfl
    · next unlisted =>
        rw [listing.mem_keys_iff] at unlisted
        simpa using unlisted

end DiskTier

end SourcePreview
