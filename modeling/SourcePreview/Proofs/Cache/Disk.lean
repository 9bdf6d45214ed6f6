import SourcePreview.Cache.Disk
import SourcePreview.Proofs.Cache.Entry
import SourcePreview.Proofs.Cache.Key
import SourcePreview.Proofs.FileTree.Access
import SourcePreview.Proofs.FileTree.Edits

/-!
# What the disk tier does to the entries

An operation of the disk tier is described by what it does to the entries in its directory.
Opening the tier and looking through it keep all entries, reading keeps all that can be decoded,
sweeping and clearing may lose entries, and storing sets the entry of one key.  Temporary files
and files in other places are no entries, because the name of an entry consists of digits.
-/

namespace SourcePreview

namespace FileTree

/-- The bytes of the entry of a key in the directory at a location. -/
def entryAt? (tree : FileTree) (directory : Location) (key : Key) : Option Bytes :=
  match tree.node? (directory ++ [key.fileName]) with
  | some (.file file) => some file.bytes
  | _ => none

theorem append_fileName_eq_iff
    {first second : Location} {left right : Key} :
    first ++ [left.fileName] = second ++ [right.fileName] ↔
      first = second ∧ left = right := by
  rw [List.append_singleton_inj, Key.fileName_injective.eq_iff]

theorem append_fileName_inj
    {directory : Location} {left right : Key} :
    directory ++ [left.fileName] = directory ++ [right.fileName] ↔
      left = right := by
  rw [append_fileName_eq_iff, and_iff_right rfl]

theorem append_fileName_ne_nil (directory : Location) (key : Key) :
    directory ++ [key.fileName] ≠ [] := by
  simp

theorem entryAt?_congr
    {before after : FileTree} {directory : Location} {key : Key}
    (same :
      after.node? (directory ++ [key.fileName]) =
        before.node? (directory ++ [key.fileName])) :
    after.entryAt? directory key = before.entryAt? directory key := by
  rw [entryAt?, entryAt?, same]

theorem entryAt?_eq_some_iff
    {tree : FileTree} {directory : Location} {key : Key} {bytes : Bytes} :
    tree.entryAt? directory key = some bytes ↔
      ∃ file,
        tree.node? (directory ++ [key.fileName]) = some (.file file) ∧
          file.bytes = bytes := by
  unfold entryAt?
  split
  · next file present => simp [present]
  · next absent =>
      constructor
      · intro none
        cases none
      · rintro ⟨file, present, _⟩
        exact absurd present (absent file)

theorem entryAt?_eq_none
    {tree : FileTree} {directory : Location} {key : Key}
    (absent : tree.node? (directory ++ [key.fileName]) = none) :
    tree.entryAt? directory key = none := by
  rw [entryAt?, absent]

/-- Whether the entry of a key in a directory can be decoded and gives a styled text. -/
def HasEntry
    (tree : FileTree) (directory : Location) (key : Key) (styled : StyledText) : Prop :=
  ∃ bytes, tree.entryAt? directory key = some bytes ∧ Entry.decode bytes = .ok styled

theorem HasEntry.unique
    {tree : FileTree} {directory : Location} {key : Key} {first second : StyledText}
    (has : tree.HasEntry directory key first)
    (hasOther : tree.HasEntry directory key second) :
    first = second := by
  obtain ⟨bytes, entry, decodes⟩ := has
  obtain ⟨otherBytes, otherEntry, otherDecodes⟩ := hasOther
  rw [entry] at otherEntry
  cases otherEntry
  rw [decodes] at otherDecodes
  cases otherDecodes
  rfl

/-- Whether a location is that of no entry, whatever the directory. -/
def IsNoEntry (location : Location) : Prop :=
  ∀ directory (key : Key), directory ++ [key.fileName] ≠ location

/-- Whether a change has kept all entries of a directory. -/
structure KeepsEntries (directory : Location) (before after : FileTree) : Prop where
  working : after.working = before.working
  entryAt? : ∀ key, after.entryAt? directory key = before.entryAt? directory key

/-- Whether a change has at most removed entries of a directory. -/
structure LosesEntries (directory : Location) (before after : FileTree) : Prop where
  working : after.working = before.working
  entryAt? : ∀ key,
    after.entryAt? directory key = before.entryAt? directory key ∨
      after.entryAt? directory key = none

section

variable {directory : Location} {first second third : FileTree}

theorem KeepsEntries.refl (tree : FileTree) : KeepsEntries directory tree tree :=
  ⟨rfl, fun _ => rfl⟩

theorem KeepsEntries.trans
    (earlier : KeepsEntries directory first second)
    (later : KeepsEntries directory second third) :
    KeepsEntries directory first third :=
  ⟨later.working.trans earlier.working,
    fun key => (later.entryAt? key).trans (earlier.entryAt? key)⟩

theorem KeepsEntries.loses
    (keeps : KeepsEntries directory first second) :
    LosesEntries directory first second :=
  ⟨keeps.working, fun key => Or.inl (keeps.entryAt? key)⟩

theorem KeepsEntries.hasEntry_iff
    (keeps : KeepsEntries directory first second) {key : Key} {styled : StyledText} :
    second.HasEntry directory key styled ↔ first.HasEntry directory key styled := by
  rw [HasEntry, HasEntry, keeps.entryAt? key]

theorem LosesEntries.entryAt?_eq_some
    (loses : LosesEntries directory first second) {key : Key} {bytes : Bytes}
    (entry : second.entryAt? directory key = some bytes) :
    first.entryAt? directory key = some bytes := by
  rcases loses.entryAt? key with same | gone
  · rw [← same]
    exact entry
  · rw [gone] at entry
    cases entry

theorem LosesEntries.hasEntry
    (loses : LosesEntries directory first second) {key : Key} {styled : StyledText}
    (has : second.HasEntry directory key styled) :
    first.HasEntry directory key styled := by
  obtain ⟨bytes, entry, decodes⟩ := has
  exact ⟨bytes, loses.entryAt?_eq_some entry, decodes⟩

theorem LosesEntries.refl (tree : FileTree) : LosesEntries directory tree tree :=
  (KeepsEntries.refl tree).loses

theorem LosesEntries.trans
    (earlier : LosesEntries directory first second)
    (later : LosesEntries directory second third) :
    LosesEntries directory first third := by
  refine ⟨later.working.trans earlier.working, fun key => ?_⟩
  rcases later.entryAt? key with same | gone
  · rw [same]
    exact earlier.entryAt? key
  · exact Or.inr gone

end

theorem AddsDirectories.keepsEntries
    {before after : FileTree} (adds : AddsDirectories before after)
    (directory : Location) :
    KeepsEntries directory before after := by
  refine ⟨adds.working, fun key => ?_⟩
  rcases adds.node? (directory ++ [key.fileName]) with same | ⟨absent, added⟩
  · exact entryAt?_congr same
  · rw [FileTree.entryAt?, FileTree.entryAt?, absent, added]

theorem keepsEntries_put
    (tree : FileTree) (directory : Location) {location : Location}
    (noEntry : IsNoEntry location) (node : Node) :
    KeepsEntries directory tree (tree.put location node) :=
  ⟨rfl, fun key => entryAt?_congr <| by
    rw [node?_put _ _ _ (append_fileName_ne_nil directory key),
      if_neg (noEntry directory key)]⟩

theorem keepsEntries_erase
    (tree : FileTree) (directory : Location) {location : Location}
    (noEntry : IsNoEntry location) :
    KeepsEntries directory tree (tree.erase location) :=
  ⟨rfl, fun key => entryAt?_congr <| by
    rw [node?_erase _ _ (append_fileName_ne_nil directory key),
      if_neg (noEntry directory key)]⟩

theorem losesEntries_erase
    (tree : FileTree) (directory location : Location) :
    LosesEntries directory tree (tree.erase location) := by
  refine ⟨rfl, fun key => ?_⟩
  have node := node?_erase tree location (append_fileName_ne_nil directory key)
  split at node
  · exact Or.inr (entryAt?_eq_none node)
  · exact Or.inl (entryAt?_congr node)

/-- Erasing an entry that cannot be decoded keeps all entries that can. -/
theorem hasEntry_erase_of_undecodable
    {tree : FileTree} {directory : Location} {key other : Key} {file : File}
    (present : tree.node? (directory ++ [key.fileName]) = some (.file file))
    (undecodable : ∀ styled, Entry.decode file.bytes ≠ .ok styled)
    {styled : StyledText} :
    (tree.erase (directory ++ [key.fileName])).HasEntry directory other styled ↔
      tree.HasEntry directory other styled := by
  refine ⟨(losesEntries_erase tree directory _).hasEntry, ?_⟩
  rintro ⟨bytes, entry, decodes⟩
  refine ⟨bytes, ?_, decodes⟩
  have node :=
    node?_erase tree (directory ++ [key.fileName])
      (append_fileName_ne_nil directory other)
  simp only [append_fileName_inj] at node
  split at node
  · next same =>
      obtain ⟨otherFile, here, rfl⟩ := entryAt?_eq_some_iff.mp entry
      rw [same, present] at here
      cases here
      exact absurd decodes (undecodable styled)
  · rw [entryAt?_congr node]
    exact entry

theorem losesEntries_eraseBelow
    (tree : FileTree) (directory location : Location) :
    LosesEntries directory tree (tree.eraseBelow location) := by
  refine ⟨rfl, fun key => ?_⟩
  have node :=
    node?_eraseBelow tree location (append_fileName_ne_nil directory key)
  split at node
  · exact Or.inr (entryAt?_eq_none node)
  · exact Or.inl (entryAt?_congr node)

end FileTree

namespace DiskTier

open FileTree

theorem getLast?_child
    {last : UInt8} (directory : Path) {name : String}
    (ends : (Text.encode name.toList).getLast? = some last) :
    (directory.child name).bytes.getLast? = some last := by
  obtain ⟨front, split⟩ := List.getLast?_eq_some_iff.mp ends
  rw [Path.child, Path.join]
  simp only [Path.ofString, split]
  split
  · simp
  · split
    · simp
    · exact
        List.getLast?_eq_some_iff.mpr
          ⟨directory.bytes ++ Path.slash :: front, by simp⟩

/-- Whether a byte is at the end of no name of an entry and of no dots. -/
def EndsNoEntry (last : UInt8) : Prop :=
  Key.isNameByte last = false ∧ last ≠ Path.slash ∧ last ≠ Path.dot

/-- A name with such an end leads to no entry. -/
theorem isNoEntry_child
    {last : UInt8} (endsNoEntry : EndsNoEntry last) (directory : Path)
    {name : String} (ends : (Text.encode name.toList).getLast? = some last)
    (working : Location) :
    IsNoEntry ((directory.child name).locationFrom working) := by
  obtain ⟨noDigit, noSlash, noDot⟩ := endsNoEntry
  obtain ⟨parent, piece, location, pieceEnds⟩ :=
    Path.exists_locationFrom_eq_append_singleton (getLast?_child directory ends)
      noSlash noDot working
  intro other key same
  rw [location] at same
  have samePiece : key.fileName = piece :=
    List.singleton_inj.mp (List.append_inj_right' same rfl)
  rw [← samePiece] at pieceEnds
  rw [Key.isNameByte_of_mem_fileName (List.mem_of_getLast? pieceEnds)] at noDigit
  cases noDigit

/-- The last byte of the name of a temporary file. -/
def temporaryEnd : UInt8 := 0x70

theorem endsNoEntry_temporaryEnd : EndsNoEntry temporaryEnd := by
  refine ⟨?_, ?_, ?_⟩ <;> decide

theorem getLast?_append_tmp (front : String) :
    (Text.encode (front ++ ".tmp").toList).getLast? = some temporaryEnd := by
  rw [String.toList_append, Text.encode_append,
    List.getLast?_append_of_ne_nil]
  all_goals decide

theorem getLast?_temporaryName (tree : FileTree) (name : String) :
    (Text.encode (temporaryName tree name).toList).getLast? =
      some temporaryEnd :=
  getLast?_append_tmp _

theorem getLast?_of_endsWith_tmp
    {name : String} (ends : name.endsWith ".tmp" = true) :
    (Text.encode name.toList).getLast? = some temporaryEnd := by
  obtain ⟨front, split⟩ := String.Slice.endsWith_string_iff.mp ends
  rw [String.copy_toSlice] at split
  rw [← split, Text.encode_append, List.getLast?_append_of_ne_nil]
  all_goals decide

/-- Removing a file erases its location or nothing. -/
theorem removeTolerant_eq_or_eq_erase (tree : FileTree) (path : Path) :
    (removeTolerant tree path).1 = tree ∨
      (removeTolerant tree path).1 =
        tree.erase (path.locationFrom tree.working) := by
  unfold removeTolerant
  split
  · next removed => exact Or.inr (eq_erase_of_removeFile removed).1
  · exact Or.inl rfl
  · exact Or.inl rfl

theorem losesEntries_removeTolerant
    (tree : FileTree) (path : Path) (directory : Location) :
    LosesEntries directory tree (removeTolerant tree path).1 := by
  rcases removeTolerant_eq_or_eq_erase tree path with same | erased
  · rw [same]
    exact LosesEntries.refl tree
  · rw [erased]
    exact losesEntries_erase tree directory _

theorem keepsEntries_discard
    (tree : FileTree) (directory : Location) {path : Path}
    (noEntry : IsNoEntry (path.locationFrom tree.working)) :
    KeepsEntries directory tree (discard tree path) := by
  unfold discard
  rcases removeTolerant_eq_or_eq_erase tree path with same | erased
  · rw [same]
    exact KeepsEntries.refl tree
  · rw [erased]
    exact keepsEntries_erase tree directory noEntry

theorem keepsEntries_writeFile_child
    {tree written : FileTree} {path : Path} {name : String} {bytes : Bytes}
    (ends : (Text.encode name.toList).getLast? = some temporaryEnd)
    (succeeds : tree.writeFile (path.child name) bytes = .ok written)
    (directory : Location) :
    KeepsEntries directory tree written := by
  rw [(eq_putBytes_of_writeFile succeeds).1, putBytes]
  have noEntry := isNoEntry_child endsNoEntry_temporaryEnd path ends tree.working
  exact
    ⟨rfl, (keepsEntries_put tree.tick directory noEntry _).entryAt?⟩

section Plain

-- Without links and with all rights the tier is used on trees.
variable (tree : FileTree)

@[simp]
theorem discard_plain (path : Path) :
    (FileSystem.plain tree).discard path = .plain (discard tree path) := by
  rw [FileSystem.discard, FileSystem.removeFile_plain, discard, removeTolerant]
  split
  all_goals
    next removes =>
      rw [removes]
      rfl

theorem probe_plain (directory : Path) :
    probe (.plain tree) directory =
      match tree.countName.writeFile (directory.child (temporaryName tree "probe"))
          (Text.encode "glance".toList) with
      | .error reason =>
        (.plain (discard tree.countName (directory.child (temporaryName tree "probe"))),
          .error (.unavailable directory reason))
      | .ok written =>
        match written.removeFile (directory.child (temporaryName tree "probe")) with
        | .ok removed => (.plain removed, .ok ())
        | .error reason =>
          (.plain (discard written (directory.child (temporaryName tree "probe"))),
            .error (.unavailable directory reason)) := by
  unfold probe
  dsimp only
  rw [FileSystem.tree_plain, FileSystem.countName_plain, FileSystem.writeFile_plain]
  cases tree.countName.writeFile (directory.child (temporaryName tree "probe"))
      (Text.encode "glance".toList) with
  | error reason =>
      dsimp only
      rw [discard_plain]
  | ok written =>
      dsimp only
      rw [FileSystem.removeFile_plain, discard_plain]
      cases written.removeFile (directory.child (temporaryName tree "probe")) <;> rfl

theorem openAt_eq (config : DiskConfig) :
    openAt tree config =
      match tree.createDirectories config.directory with
      | (made, .error reason) => (made, .error (.directory config.directory reason))
      | (made, .ok ()) =>
        match probe (.plain made) config.directory with
        | (probed, .error failure) => (probed.tree, .error failure)
        | (probed, .ok ()) => (probed.tree, .ok ⟨config, 0⟩) := by
  unfold openAt openIn
  rw [FileSystem.tree_plain]
  rcases tree.createDirectories config.directory with ⟨made, reason | _⟩
  · rfl
  · dsimp only [FileSystem.plain]
    generalize probe _ config.directory = result
    rcases result with ⟨probed, failure | _⟩ <;> rfl

theorem replaceFile_plain (temporary path : Path) (bytes : Bytes) :
    replaceFile (.plain tree) temporary path bytes =
      match tree.writeFile temporary bytes with
      | .error reason => (.plain (discard tree temporary), .error reason)
      | .ok written =>
        match written.renameFile temporary path with
        | .ok renamed => (.plain renamed, .ok ())
        | .error reason => (.plain (discard written temporary), .error reason) := by
  rw [replaceFile, FileSystem.writeFile_plain]
  cases tree.writeFile temporary bytes with
  | error reason =>
      dsimp only
      rw [discard_plain]
  | ok written =>
      dsimp only
      rw [FileSystem.renameFile_plain, discard_plain]
      cases written.renameFile temporary path <;> rfl

theorem store_eq (tier : DiskTier) (key : Key) (styled : StyledText) :
    tier.store tree key styled =
      match replaceFile (.plain tree.countName)
          (tier.config.directory.child (temporaryName tree key.name))
          (tier.config.directory.child key.name) (Entry.encode styled) with
      | (changed, .ok ()) => (changed.tree, .ok ())
      | (changed, .error reason) =>
        (changed.tree, .error (.file (tier.config.directory.child key.name) reason)) := by
  unfold store storeIn
  dsimp only
  rw [FileSystem.tree_plain, FileSystem.countName_plain]
  rcases replaceFile (.plain tree.countName)
      (tier.config.directory.child (temporaryName tree key.name))
      (tier.config.directory.child key.name) (Entry.encode styled) with
    ⟨changed, _ | _⟩ <;> rfl

end Plain

section Temporaries

-- Opening the tier and storing that fails change no files but temporary ones, which they name,
-- write and remove, so what they leave is related to what was there by every preorder that contains
-- these single steps.
variable
    (Related : FileTree → FileTree → Prop) {directory : Path}
    (trans : ∀ {first second third},
      Related first second → Related second third → Related first third)
    (counts : ∀ tree, Related tree tree.countName)
    (writes : ∀ {tree written name bytes},
      (Text.encode name.toList).getLast? = some temporaryEnd →
        tree.writeFile (directory.child name) bytes = .ok written → Related tree written)
    (discards : ∀ tree {name},
      (Text.encode name.toList).getLast? = some temporaryEnd →
        Related tree (discard tree (directory.child name)))

include trans counts writes discards

theorem related_probe (tree : FileTree) :
    Related tree (probe (.plain tree) directory).1.tree := by
  have ends := getLast?_temporaryName tree "probe"
  have counted := counts tree
  rw [probe_plain]
  generalize temporaryName tree "probe" = name at ends
  split
  · exact trans counted (discards tree.countName ends)
  · next written writing =>
      have wrote := trans counted (writes ends writing)
      have discarded := discards written ends
      split
      · next removed removing =>
          unfold discard removeTolerant at discarded
          rw [removing] at discarded
          exact trans wrote discarded
      · exact trans wrote discarded

theorem related_openAt
    {config : DiskConfig} (same : config.directory = directory) {tree : FileTree}
    (made : Related tree (tree.createDirectories directory).1) :
    Related tree (openAt tree config).1 := by
  rw [openAt_eq, same]
  split
  · next creates => rwa [creates] at made
  · next changed creates =>
      rw [creates] at made
      have probed := related_probe Related trans counts writes discards changed
      split
      all_goals
        next probes =>
          rw [probes] at probed
          exact trans made probed

omit counts in
/-- Replacing a file fails after nothing but attempts at the temporary file. -/
theorem related_of_replaceFile_eq_error
    {tree : FileTree} {after : FileSystem} {path : Path} {name : String} {bytes : Bytes}
    {failure : SystemError}
    (ends : (Text.encode name.toList).getLast? = some temporaryEnd)
    (fails :
      replaceFile (.plain tree) (directory.child name) path bytes = (after, .error failure)) :
    Related tree after.tree := by
  rw [replaceFile_plain] at fails
  split at fails
  · cases fails
    exact discards tree ends
  · next written writing =>
      split at fails
      · cases fails
      · cases fails
        exact trans (writes ends writing) (discards written ends)

theorem related_of_store_eq_error
    {tier : DiskTier} (same : tier.config.directory = directory) {tree after : FileTree}
    {key : Key} {styled : StyledText} {failure : CacheError}
    (fails : tier.store tree key styled = (after, .error failure)) :
    Related tree after := by
  rw [store_eq] at fails
  split at fails
  · cases fails
  · next replaces =>
      cases fails
      rw [same] at replaces
      exact
        trans (counts tree)
          (related_of_replaceFile_eq_error Related trans writes discards
            (getLast?_temporaryName tree key.name) replaces)

end Temporaries

theorem keepsEntries_countName (tree : FileTree) (directory : Location) :
    KeepsEntries directory tree tree.countName :=
  ⟨rfl, fun _ => rfl⟩

theorem keepsEntries_discard_child
    (tree : FileTree) (path : Path) {name : String}
    (ends : (Text.encode name.toList).getLast? = some temporaryEnd) (directory : Location) :
    KeepsEntries directory tree (discard tree (path.child name)) :=
  keepsEntries_discard tree directory
    (isNoEntry_child endsNoEntry_temporaryEnd path ends tree.working)

/-- Opening the tier keeps all entries. -/
theorem keepsEntries_openAt
    (tree : FileTree) (config : DiskConfig) (directory : Location) :
    KeepsEntries directory tree (openAt tree config).1 :=
  related_openAt (KeepsEntries directory) KeepsEntries.trans
    (fun tree => keepsEntries_countName tree directory)
    (fun ends writes => keepsEntries_writeFile_child ends writes directory)
    (fun tree _ ends => keepsEntries_discard_child tree _ ends directory) rfl
    ((addsDirectories_createDirectories tree config.directory).keepsEntries directory)

/-- A tier that was opened has the wanted configuration and counts no write yet. -/
theorem eq_of_openAt
    {tree opened : FileTree} {config : DiskConfig} {tier : DiskTier}
    (opens : openAt tree config = (opened, .ok tier)) :
    tier = ⟨config, 0⟩ := by
  rw [openAt_eq] at opens
  split at opens
  · cases opens
  · split at opens
    · cases opens
    · cases opens
      rfl

theorem config_of_openAt
    {tree opened : FileTree} {config : DiskConfig} {tier : DiskTier}
    (opens : openAt tree config = (opened, .ok tier)) :
    tier.config = config := by
  rw [eq_of_openAt opens]

/-- Replacing a file succeeds by writing another one and renaming it. -/
theorem exists_of_replaceFile_eq_ok
    {tree : FileTree} {after : FileSystem} {temporary path : Path} {bytes : Bytes}
    (succeeds : replaceFile (.plain tree) temporary path bytes = (after, .ok ())) :
    ∃ written,
      tree.writeFile temporary bytes = .ok written ∧
        written.renameFile temporary path = .ok after.tree := by
  rw [replaceFile_plain] at succeeds
  split at succeeds
  · cases succeeds
  · next written writes =>
      split at succeeds
      · next renames =>
          cases succeeds
          exact ⟨written, writes, renames⟩
      · cases succeeds

theorem exists_of_store_eq_ok
    {tier : DiskTier} {tree after : FileTree} {key : Key} {styled : StyledText}
    (stores : tier.store tree key styled = (after, .ok ())) :
    ∃ written,
      tree.countName.writeFile
          (tier.config.directory.child (temporaryName tree key.name))
          (Entry.encode styled) = .ok written ∧
        written.renameFile
          (tier.config.directory.child (temporaryName tree key.name))
          (tier.config.directory.child key.name) = .ok after := by
  rw [store_eq] at stores
  split at stores
  · next replaces =>
      cases stores
      exact exists_of_replaceFile_eq_ok replaces
  · cases stores

theorem exists_store_eq_ok
    {tier : DiskTier} {tree : FileTree} {key : Key} {styled : StyledText}
    (succeeds : (tier.store tree key styled).2.toBool = true) :
    ∃ after, tier.store tree key styled = (after, .ok ()) := by
  cases stores : tier.store tree key styled with
  | mk after result =>
      rw [stores] at succeeds
      cases result with
      | error failure => cases succeeds
      | ok _ => exact ⟨after, rfl⟩

/-- Storing that fails keeps all entries. -/
theorem keepsEntries_of_store_eq_error
    {tier : DiskTier} {tree after : FileTree} {key : Key} {styled : StyledText}
    {failure : CacheError}
    (fails : tier.store tree key styled = (after, .error failure))
    (location : Location) :
    KeepsEntries location tree after :=
  related_of_store_eq_error (KeepsEntries location) KeepsEntries.trans
    (fun tree => keepsEntries_countName tree location)
    (fun ends writes => keepsEntries_writeFile_child ends writes location)
    (fun tree _ ends => keepsEntries_discard_child tree _ ends location) rfl fails

/-- Whether the path of an entry leads to it. -/
def Reaches
    (tier : DiskTier) (tree : FileTree) (directory : Location) (key : Key) : Prop :=
  tree.place (tier.config.directory.child key.name) =
    .ok (.entry directory key.fileName false)

/-- Marking a file as used keeps all entries, wherever they are. -/
theorem keepsEntries_touch
    {tree touched : FileTree} {path : Path} (succeeds : tree.touch path = .ok touched)
    (directory : Location) :
    KeepsEntries directory tree touched := by
  obtain ⟨file, present, rfl⟩ := eq_put_of_touch succeeds
  refine ⟨rfl, fun other => ?_⟩
  have node :=
    node?_put tree.tick (path.locationFrom tree.working)
      (.file { file with modified := tree.tick.clock })
      (append_fileName_ne_nil directory other)
  split at node
  · next same =>
      rw [← same] at present
      rw [entryAt?_eq_some_iff.mpr ⟨_, node, rfl⟩,
        entryAt?_eq_some_iff.mpr ⟨_, present, rfl⟩]
      rfl
  · exact entryAt?_congr node

/-- The entry in a file of a tree and the tree after its use. -/
def readEntry (tree : FileTree) (path : Path) : FileTree × Option StyledText :=
  ((readFrom (.plain tree) path).1.tree, (readFrom (.plain tree) path).2)

theorem readEntry_eq (tree : FileTree) (path : Path) :
    readEntry tree path =
      match tree.fileAt path with
      | .error _ => (tree, none)
      | .ok file =>
        match Entry.decode file.bytes with
        | .ok styled => ((tree.touch path).toOption.getD tree, some styled)
        | .error _ => (discard tree path, none) := by
  rw [readEntry, readFrom, FileSystem.fileAt_plain]
  cases tree.fileAt path with
  | error failure => rfl
  | ok file =>
      dsimp only
      cases Entry.decode file.bytes with
      | ok styled =>
          dsimp only
          rw [FileSystem.touch_plain]
          cases tree.touch path <;> rfl
      | error failure =>
          dsimp only
          rw [discard_plain]
          rfl

theorem get_eq_readEntry (tier : DiskTier) (tree : FileTree) (key : Key) :
    tier.get tree key = readEntry tree (tier.config.directory.child key.name) := by
  rw [get, getByName, find, entryPath?, if_pos key.isName_name]
  rfl

/-- Where a file is read, there is none, or it is an entry and is marked as used, or it is no entry
and is discarded. -/
theorem readEntry_cases (tree : FileTree) (path : Path) :
    readEntry tree path = (tree, none) ∨
      ∃ file, tree.fileAt path = .ok file ∧
        ((∃ styled touched, Entry.decode file.bytes = .ok styled ∧
            tree.touch path = .ok touched ∧ readEntry tree path = (touched, some styled)) ∨
          ∃ failure, Entry.decode file.bytes = .error failure ∧
            readEntry tree path = (discard tree path, none)) := by
  rw [readEntry_eq]
  cases reads : tree.fileAt path with
  | error failure => exact Or.inl rfl
  | ok file =>
      refine Or.inr ⟨file, rfl, ?_⟩
      dsimp only
      cases decodes : Entry.decode file.bytes with
      | ok styled =>
          obtain ⟨touched, touches⟩ := exists_touch_eq_ok reads
          rw [touches]
          exact Or.inl ⟨styled, touched, rfl, rfl, rfl⟩
      | error failure => exact Or.inr ⟨failure, rfl, rfl⟩

/-- An entry that is read is marked as used. -/
theorem exists_of_readEntry_eq_some
    {tree after : FileTree} {path : Path} {styled : StyledText}
    (found : readEntry tree path = (after, some styled)) :
    ∃ file, tree.fileAt path = .ok file ∧ Entry.decode file.bytes = .ok styled ∧
      tree.touch path = .ok after := by
  rcases readEntry_cases tree path with
    none | ⟨file, reads, ⟨other, touched, decodes, touches, some⟩ | ⟨_, _, none⟩⟩
  · cases none.symm.trans found
  · cases some.symm.trans found
    exact ⟨file, reads, decodes, touches⟩
  · cases none.symm.trans found

section Located

variable
    {tier : DiskTier} {tree : FileTree} {directory : Location}
    (located : tier.config.directory.locationFrom tree.working = directory)

include located

theorem locationFrom_entry (key : Key) :
    (tier.config.directory.child key.name).locationFrom tree.working =
      directory ++ [key.fileName] := by
  rw [Path.locationFrom_child _ _ (Key.isPlainName_of_isName key.isName_name),
    located]
  rfl

/-- An entry that is found can be decoded, and all entries are kept, wherever they are. -/
theorem get_eq_some
    {key : Key} {after : FileTree} {styled : StyledText}
    (found : tier.get tree key = (after, some styled)) :
    (∀ location, KeepsEntries location tree after) ∧
      tree.HasEntry directory key styled := by
  rw [get_eq_readEntry] at found
  obtain ⟨file, reads, decodes, touches⟩ := exists_of_readEntry_eq_some found
  have present := node?_of_fileAt reads
  rw [locationFrom_entry located] at present
  exact
    ⟨keepsEntries_touch touches, file.bytes, entryAt?_eq_some_iff.mpr ⟨file, present, rfl⟩,
      decodes⟩

/-- Where no entry is found, nothing changes unless a file that cannot be decoded is removed. -/
theorem eq_or_eq_erase_of_get
    {key : Key} {after : FileTree}
    (misses : tier.get tree key = (after, none)) :
    after = tree ∨
      ∃ file,
        tree.node? (directory ++ [key.fileName]) = some (.file file) ∧
          (∀ styled, Entry.decode file.bytes ≠ .ok styled) ∧
            after = tree.erase (directory ++ [key.fileName]) := by
  have location := locationFrom_entry located key
  rw [get_eq_readEntry] at misses
  rcases readEntry_cases tree (tier.config.directory.child key.name) with
    none | ⟨file, reads, ⟨_, _, _, _, some⟩ | ⟨_, undecodable, discarded⟩⟩
  · cases none.symm.trans misses
    exact Or.inl rfl
  · cases some.symm.trans misses
  · cases discarded.symm.trans misses
    have present := node?_of_fileAt reads
    rcases removeTolerant_eq_or_eq_erase tree (tier.config.directory.child key.name) with
      same | erased
    · exact Or.inl same
    · refine Or.inr ⟨file, location ▸ present, fun styled decodes => ?_, location ▸ erased⟩
      cases decodes.symm.trans undecodable

/-- A look at an entry at most loses it. -/
theorem losesEntries_get (key : Key) : LosesEntries directory tree (tier.get tree key).1 := by
  cases found : tier.get tree key with
  | mk after result =>
      cases result with
      | some styled => exact ((get_eq_some located found).1 directory).loses
      | none =>
          rcases eq_or_eq_erase_of_get located found with same | ⟨_, _, _, erased⟩
          · rw [same]
            exact LosesEntries.refl tree
          · rw [erased]
            exact losesEntries_erase tree directory _

/-- Storing that succeeds sets the entry of its key, and no other one in any directory. -/
theorem entryAt?_of_store
    {key : Key} {styled : StyledText} {after : FileTree}
    (stores : tier.store tree key styled = (after, .ok ())) :
    after.working = tree.working ∧
      ∀ location other,
        after.entryAt? location other =
          if location = directory ∧ other = key then some (Entry.encode styled)
          else tree.entryAt? location other := by
  obtain ⟨written, writes, renames⟩ := exists_of_store_eq_ok stores
  have ends := getLast?_temporaryName tree key.name
  have noEntry :=
    isNoEntry_child endsNoEntry_temporaryEnd tier.config.directory ends tree.working
  have keeps (location : Location) : KeepsEntries location tree written :=
    (keepsEntries_countName tree location).trans (keepsEntries_writeFile_child ends writes location)
  have sameWorking := (keeps directory).working
  obtain ⟨file, _, moved, _, _, rfl⟩ := eq_put_of_renameFile renames
  rw [sameWorking] at moved ⊢
  rw [locationFrom_entry located]
  have bytes : file.bytes = Entry.encode styled := by
    rw [eq_of_writeFile writes moved]
    simp [File.bytes]
  refine ⟨sameWorking, fun location other => ?_⟩
  have erased := (keeps location).trans (keepsEntries_erase written location noEntry)
  have node :=
    node?_put
      (written.erase
        ((tier.config.directory.child
          (temporaryName tree key.name)).locationFrom tree.working))
      (directory ++ [key.fileName]) (.file file)
      (append_fileName_ne_nil location other)
  simp only [append_fileName_eq_iff] at node
  split at node
  · next same =>
      rw [if_pos same, ← bytes]
      exact entryAt?_eq_some_iff.mpr ⟨file, node, rfl⟩
  · next different =>
      rw [if_neg different, entryAt?_congr node]
      exact erased.entryAt? other

theorem store_eq_ok
    {key : Key} {styled : StyledText} {after : FileTree}
    (stores : tier.store tree key styled = (after, .ok ())) :
    after.working = tree.working ∧
      ∀ other,
        after.entryAt? directory other =
          if other = key then some (Entry.encode styled)
          else tree.entryAt? directory other := by
  obtain ⟨working, entries⟩ := entryAt?_of_store located stores
  refine ⟨working, fun other => ?_⟩
  rw [entries directory other]
  simp only [true_and]

/-- Storing succeeds only where the entry can be walked to. -/
theorem reaches_of_store
    {key : Key} {styled : StyledText}
    (succeeds : (tier.store tree key styled).2.toBool = true) :
    tier.Reaches tree directory key := by
  obtain ⟨after, stores⟩ := exists_store_eq_ok succeeds
  obtain ⟨written, writes, renames⟩ := exists_of_store_eq_ok stores
  obtain ⟨_, place, _, walked, _, _⟩ := eq_put_of_renameFile renames
  have put := (eq_putBytes_of_writeFile writes).1
  have directories (location : Location)
      (isDirectory : written.node? location = some .directory) :
      tree.node? location = some .directory := by
    by_cases root : location = []
    · rw [root, node?_nil]
    rw [put, putBytes, node?_put _ _ _ root] at isDirectory
    split at isDirectory
    · cases isDirectory
    · exact isDirectory
  have treeWalked := place_of_directories directories (put ▸ rfl) walked
  rw [Reaches, treeWalked,
    eq_entry_of_place_child (Key.isPlainName_of_isName key.isName_name)
      treeWalked,
    located]
  rfl

/-- After a preview was stored its key has the preview as its entry, if that is well-formed, and
no other one. -/
theorem hasEntry_iff_of_store
    {key other : Key} {styled found : StyledText} {after : FileTree}
    (stores : tier.store tree key styled = (after, .ok ())) :
    after.HasEntry directory other found ↔
      if other = key then styled.isWellFormed = true ∧ found = styled
      else tree.HasEntry directory other found := by
  rw [FileTree.HasEntry, (store_eq_ok located stores).2 other]
  split
  · constructor
    · rintro ⟨bytes, same, decodes⟩
      cases same
      exact Entry.decode_encode_eq_ok_iff.mp decodes
    · rintro ⟨wellFormed, rfl⟩
      exact ⟨_, rfl, Entry.decode_encode_of_isWellFormed wellFormed⟩
  · rfl

end Located

/-- An entry that can be decoded is found where its path leads to it. -/
theorem exists_get_eq_some
    {tier : DiskTier} {tree : FileTree} {directory : Location} {key : Key}
    {styled : StyledText} (reaches : tier.Reaches tree directory key)
    (has : tree.HasEntry directory key styled) :
    ∃ after, tier.get tree key = (after, some styled) := by
  obtain ⟨bytes, entry, decodes⟩ := has
  obtain ⟨file, present, rfl⟩ := entryAt?_eq_some_iff.mp entry
  rw [get_eq_readEntry, readEntry_eq, fileAt_of_place reaches present]
  dsimp only
  rw [decodes]
  exact ⟨_, rfl⟩

/-- A look through the directory shows files of keys only. -/
theorem exists_key_of_mem_scan
    {tier : DiskTier} {tree scanned : FileTree} {entries : List ScannedEntry}
    (scans : tier.scan tree = (scanned, .ok entries))
    {entry : ScannedEntry} (member : entry ∈ entries) :
    ∃ key : Key, entry.path = tier.config.directory.child key.name := by
  unfold scan at scans
  dsimp only at scans
  split at scans
  · cases scans
  · cases scans
    obtain ⟨name, _, shown⟩ := List.mem_filterMap.mp member
    unfold scannedFile? at shown
    split at shown
    · split at shown
      · next isName =>
          cases shown
          obtain ⟨key, _, rfl⟩ := Key.exists_ofName?_of_isName isName
          exact ⟨key, rfl⟩
      · cases shown
    · cases shown

section Removals

-- Looking through the directory, sweeping and clearing do nothing but remove files of the tier one
-- after the other, so what they leave is related to what was there by every preorder that contains
-- these single removals.
variable
    {Related : FileTree → FileTree → Prop} {tier : DiskTier}
    (refl : ∀ tree, Related tree tree)
    (trans : ∀ {first second third},
      Related first second → Related second third → Related first third)

include refl trans

/-- Files are discarded one after the other. -/
theorem related_foldl_discard
    {directory : Path} {names : List String}
    (removes : ∀ tree, ∀ name ∈ names,
      Related tree (removeTolerant tree (directory.child name)).1)
    (tree : FileTree) :
    Related tree
      (names.foldl (fun tree name => discard tree (directory.child name)) tree) := by
  induction names generalizing tree with
  | nil => exact refl tree
  | cons name names ih =>
      exact
        trans (removes tree name (by simp))
          (ih (fun tree other member => removes tree other (by simp [member])) _)

/-- Looking through the directory removes nothing but temporary files. -/
theorem related_scan
    (removes : ∀ tree name,
      name.endsWith ".tmp" = true →
        Related tree (removeTolerant tree (tier.config.directory.child name)).1)
    (tree : FileTree) :
    Related tree (tier.scan tree).1 := by
  unfold scan
  dsimp only
  split
  · exact refl tree
  · refine related_foldl_discard refl trans (fun changed name member => ?_) tree
    refine removes changed name ?_
    have isStale := (List.mem_filter.mp member).2
    unfold DiskTier.isStale at isStale
    split at isStale
    · simp only [Bool.and_eq_true] at isStale
      exact isStale.1.2
    · cases isStale

variable
    (removes : ∀ tree (key : Key),
      Related tree (removeTolerant tree (tier.config.directory.child key.name)).1)

include removes

theorem related_removeUntil
    (bounds : Eviction.Bounds) {entries : List ScannedEntry}
    (keyed : ∀ entry ∈ entries,
      ∃ key : Key, entry.path = tier.config.directory.child key.name)
    (count size : Nat) (tree : FileTree) :
    Related tree (Eviction.removeUntil removeEntry bounds count size entries tree).2 := by
  induction entries generalizing count size tree with
  | nil => exact refl tree
  | cons entry entries ih =>
      rw [List.forall_mem_cons] at keyed
      obtain ⟨⟨key, path⟩, keyed⟩ := keyed
      rw [Eviction.removeUntil]
      split
      · exact refl tree
      · have removed : Related tree (removeEntry entry.path tree).2 := by
          have related := removes tree key
          rw [← path] at related
          unfold removeEntry
          split
          all_goals
            next removal =>
              rw [removal] at related
              exact related
        split
        all_goals
          next removal =>
            rw [removal] at removed
            exact trans removed (ih keyed _ _ _)

theorem related_removeEach
    (failure : Option CacheError) (count : Nat) {entries : List ScannedEntry}
    (keyed : ∀ entry ∈ entries,
      ∃ key : Key, entry.path = tier.config.directory.child key.name)
    (tree : FileTree) :
    Related tree (removeEach failure count entries tree).1 := by
  induction entries generalizing failure count tree with
  | nil => cases failure <;> exact refl tree
  | cons entry entries ih =>
      rw [List.forall_mem_cons] at keyed
      obtain ⟨⟨key, path⟩, keyed⟩ := keyed
      have removed := removes tree key
      rw [← path] at removed
      rw [removeEach]
      split
      all_goals
        next removal =>
          rw [removal] at removed
          exact trans removed (ih _ _ keyed _)

variable (looks : ∀ tree, Related tree (tier.scan tree).1)

include looks

theorem related_cleanup (tree : FileTree) : Related tree (tier.cleanup tree).1 := by
  have looked := looks tree
  unfold cleanup
  split
  · next scans =>
      rw [scans] at looked
      exact looked
  · next scans =>
      rw [scans] at looked
      refine trans looked (related_removeUntil refl trans removes _ (fun entry member => ?_) _ _ _)
      exact exists_key_of_mem_scan scans (List.mem_mergeSort.mp member)

theorem related_settle (tree : FileTree) : Related tree (tier.settle tree).2 := by
  unfold settle
  dsimp only
  split
  · exact related_cleanup refl trans removes looks tree
  · exact refl tree

theorem related_clear (tree : FileTree) : Related tree (tier.clear tree).1 := by
  have looked := looks tree
  unfold clear
  split
  · next scans =>
      rw [scans] at looked
      exact looked
  · next scans =>
      rw [scans] at looked
      refine trans looked (related_removeEach refl trans removes _ _ (fun entry member => ?_) _)
      exact exists_key_of_mem_scan scans member

end Removals

/-- Looking through the directory keeps all entries. -/
theorem keepsEntries_scan
    (tier : DiskTier) (tree : FileTree) (directory : Location) :
    KeepsEntries directory tree (tier.scan tree).1 := by
  refine related_scan KeepsEntries.refl KeepsEntries.trans (fun tree name ends => ?_) tree
  have noEntry :=
    isNoEntry_child endsNoEntry_temporaryEnd tier.config.directory
      (getLast?_of_endsWith_tmp ends) tree.working
  exact keepsEntries_discard tree directory noEntry

section Loses

-- Single removals at most lose entries.
variable (tier : DiskTier) (tree : FileTree) (directory : Location)

/-- Sweeping at most loses entries. -/
theorem losesEntries_cleanup : LosesEntries directory tree (tier.cleanup tree).1 :=
  related_cleanup LosesEntries.refl LosesEntries.trans
    (fun tree _ => losesEntries_removeTolerant tree _ directory)
    (fun tree => (keepsEntries_scan tier tree directory).loses) tree

/-- Counting a write at most loses entries. -/
theorem losesEntries_settle : LosesEntries directory tree (tier.settle tree).2 :=
  related_settle LosesEntries.refl LosesEntries.trans
    (fun tree _ => losesEntries_removeTolerant tree _ directory)
    (fun tree => (keepsEntries_scan tier tree directory).loses) tree

/-- Clearing at most loses entries. -/
theorem losesEntries_clear : LosesEntries directory tree (tier.clear tree).1 :=
  related_clear LosesEntries.refl LosesEntries.trans
    (fun tree _ => losesEntries_removeTolerant tree _ directory)
    (fun tree => (keepsEntries_scan tier tree directory).loses) tree

end Loses

/-- Whether the entries that a tier counts are within its bounds. -/
def IsWithinBounds (tier : DiskTier) (tree : FileTree) : Prop :=
  ∀ stats ∈ (tier.stats tree).2.toOption,
    stats.entries ≤ tier.config.maxEntries ∧ stats.bytes ≤ tier.config.maxBytes

instance (tier : DiskTier) (tree : FileTree) : Decidable (tier.IsWithinBounds tree) :=
  inferInstanceAs (Decidable (∀ stats ∈ (tier.stats tree).2.toOption, _ ∧ _))

/-- Nothing is removed while the bounds hold. -/
theorem evictOldest_of_hold
    {State : Type} (remove : Path → State → Removal × State)
    {bounds : Eviction.Bounds} {entries : List ScannedEntry}
    (hold : bounds.hold entries.length (Eviction.totalSize entries) = true)
    (state : State) :
    Eviction.evictOldest remove bounds entries state = (0, state) := by
  unfold Eviction.evictOldest
  cases Eviction.oldestFirst entries with
  | nil => rfl
  | cons entry others => rw [Eviction.removeUntil, if_pos hold]

/-- Sweeping keeps all entries if they are within the bounds. -/
theorem keepsEntries_cleanup
    {tier : DiskTier} {tree : FileTree} (within : tier.IsWithinBounds tree)
    (directory : Location) :
    KeepsEntries directory tree (tier.cleanup tree).1 := by
  have scanned := keepsEntries_scan tier tree directory
  rw [IsWithinBounds, stats] at within
  unfold cleanup
  split
  · next scans =>
      rw [scans] at scanned
      exact scanned
  · next changed entries scans =>
      rw [scans] at scanned within
      obtain ⟨fewEntries, fewBytes⟩ := within _ rfl
      have hold :
          Eviction.Bounds.hold ⟨tier.config.maxEntries, tier.config.maxBytes⟩
            entries.length (Eviction.totalSize entries) = true := by
        simp only [Eviction.Bounds.hold, Bool.and_eq_true, decide_eq_true_eq]
        exact ⟨fewEntries, fewBytes⟩
      dsimp only
      rw [evictOldest_of_hold removeEntry hold]
      exact scanned

/-- Counting a write keeps all entries if they are within the bounds. -/
theorem keepsEntries_settle
    {tier : DiskTier} {tree : FileTree} (within : tier.IsWithinBounds tree)
    (directory : Location) :
    KeepsEntries directory tree (tier.settle tree).2 := by
  unfold settle
  dsimp only
  split
  · exact keepsEntries_cleanup within directory
  · exact KeepsEntries.refl tree

@[simp]
theorem config_settle (tier : DiskTier) (tree : FileTree) :
    (tier.settle tree).1.config = tier.config := by
  unfold settle
  dsimp only
  split <;> rfl

@[simp]
theorem config_set (tier : DiskTier) (tree : FileTree) (key : Key) (styled : StyledText) :
    (tier.set tree key styled).1.config = tier.config := by
  unfold set
  split
  · rfl
  · exact config_settle tier _

end DiskTier

end SourcePreview
