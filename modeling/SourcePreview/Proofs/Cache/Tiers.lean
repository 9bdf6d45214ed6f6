import SourcePreview.Cache.Tiers
import SourcePreview.Proofs.Cache.Disk
import SourcePreview.Proofs.Cache.Memory

/-!
# What the cache knows

A claim about the previews of keys holds of the cache if it holds of everything in memory and of
every entry on disk that can be decoded.  No operation makes it fail, as long as it holds of what
is put into the cache: memory and disk only ever lose entries, move them around and copy them to
each other.
-/

namespace SourcePreview

/-- A claim about the previews of keys. -/
abbrev PreviewClaim := Key → StyledText → Prop

/-- Whether a claim holds of everything in memory. -/
def MemoryTier.Holds
    (memory : MemoryTier Key StyledText) (claim : PreviewClaim) : Prop :=
  ∀ entry ∈ memory.entries, claim entry.1 entry.2

/-- Whether a claim holds of all entries in a directory that can be decoded. -/
def FileTree.EntriesHold
    (tree : FileTree) (directory : Location) (claim : PreviewClaim) : Prop :=
  ∀ key styled, tree.HasEntry directory key styled → claim key styled

/-- Whether the disk tier of a cache, if it has one, is in a directory for the current process. -/
def Cache.IsIn
    (cache : Cache) (working directory : Location) : Prop :=
  ∀ disk, cache.disk = some disk →
    disk.config.directory.locationFrom working = directory

namespace MemoryTier

variable {memory : MemoryTier Key StyledText} {claim : PreviewClaim}

theorem holds_empty (wanted : Nat) :
    (empty wanted : MemoryTier Key StyledText).Holds claim := by
  intro entry member
  cases member

theorem holds_clear (memory : MemoryTier Key StyledText) :
    memory.clear.Holds claim := by
  intro entry member
  cases member

theorem Holds.set
    (holds : memory.Holds claim) {key : Key} {styled : StyledText}
    (holdsHere : claim key styled) :
    (memory.set key styled).Holds claim := by
  intro entry member
  rcases mem_of_mem_set member with rfl | ⟨old, _⟩
  · exact holdsHere
  · exact holds entry old

end MemoryTier

namespace FileTree

variable
    {before after : FileTree} {directory : Location} {claim : PreviewClaim}

theorem EntriesHold.of_loses
    (holds : before.EntriesHold directory claim)
    (loses : LosesEntries directory before after) :
    after.EntriesHold directory claim :=
  fun key styled has => holds key styled (loses.hasEntry has)

/-- Storing a preview of which the claim holds keeps the claim. -/
theorem EntriesHold.store
    {tier : DiskTier}
    (located : tier.config.directory.locationFrom before.working = directory)
    (holds : before.EntriesHold directory claim)
    {key : Key} {styled : StyledText} (holdsHere : claim key styled) :
    (tier.store before key styled).1.EntriesHold directory claim := by
  cases stores : tier.store before key styled with
  | mk after result =>
      cases result with
      | error failure =>
          have keeps :=
            DiskTier.keepsEntries_of_store_eq_error stores directory
          exact holds.of_loses keeps.loses
      | ok _ =>
          intro other found has
          rw [DiskTier.hasEntry_iff_of_store located stores] at has
          split at has
          · next same =>
              rw [same, has.2]
              exact holdsHere
          · exact holds other found has

/-- A preview of which the claim holds may be written, whatever is swept afterwards. -/
theorem EntriesHold.set
    {tier : DiskTier}
    (located : tier.config.directory.locationFrom before.working = directory)
    (holds : before.EntriesHold directory claim)
    {key : Key} {styled : StyledText} (holdsHere : claim key styled) :
    (tier.set before key styled).2.EntriesHold directory claim := by
  have stored := holds.store located holdsHere
  unfold DiskTier.set
  split
  · next stores =>
      rw [stores] at stored
      exact stored
  · next changed stores =>
      rw [stores] at stored
      exact stored.of_loses (DiskTier.losesEntries_settle tier changed directory)

end FileTree

namespace Cache

open FileTree

variable {cache : Cache} {tree : FileTree} {directory : Location}

/-- A cache that was opened has nothing in memory. -/
theorem memory_openAt (tree : FileTree) (memoryEntries : Nat) (disk : Option DiskConfig) :
    (openAt tree memoryEntries disk).2.memory = .empty memoryEntries := by
  unfold openAt
  repeat' split
  all_goals rfl

/-- Opening a cache changes the tree as opening its disk tier does, if one is wanted. -/
theorem related_openAt
    {Related : FileTree → FileTree → Prop} (refl : Related tree tree)
    {disk : Option DiskConfig}
    (opens : ∀ config, disk = some config → Related tree (DiskTier.openAt tree config).1)
    (memoryEntries : Nat) :
    Related tree (openAt tree memoryEntries disk).1 := by
  unfold openAt
  split
  · exact refl
  · next config =>
      have changed := opens config rfl
      split
      all_goals
        next opened =>
          rw [opened] at changed
          exact changed

/-- Opening a cache keeps all entries, wherever they are. -/
theorem keepsEntries_openAt
    (tree : FileTree) (memoryEntries : Nat) (disk : Option DiskConfig)
    (location : Location) :
    KeepsEntries location tree (openAt tree memoryEntries disk).1 :=
  related_openAt (KeepsEntries.refl tree)
    (fun config _ => DiskTier.keepsEntries_openAt tree config location) memoryEntries

/-- The disk tier of a cache that was opened is the one that was wanted. -/
theorem exists_config_of_openAt
    {memoryEntries : Nat} {disk : Option DiskConfig} {opened : DiskTier}
    (present : (openAt tree memoryEntries disk).2.disk = some opened) :
    ∃ config,
      disk = some config ∧ (DiskTier.openAt tree config).2.toBool = true ∧
        opened.config = config := by
  unfold openAt at present
  split at present
  · cases present
  · next config =>
      split at present
      · next opens =>
          cases present
          exact ⟨config, rfl, by rw [opens]; rfl, DiskTier.config_of_openAt opens⟩
      · cases present

/-- What is found is something that the claim holds of, and the claim goes on holding. -/
theorem lookup_eq_some
    {claim : PreviewClaim} (inMemory : cache.memory.Holds claim)
    (onDisk : ∀ disk, cache.disk = some disk →
      tree.EntriesHold (disk.config.directory.locationFrom tree.working) claim)
    {key : Key} {used : Cache} {after : FileTree} {styled : StyledText}
    {tier : Tier} (finds : cache.lookup tree key = (used, after, some (styled, tier))) :
    used.disk = cache.disk ∧ used.memory.Holds claim ∧
      (∀ location, KeepsEntries location tree after) ∧ claim key styled := by
  unfold lookup at finds
  split at finds
  · next remembered memory found =>
      cases finds
      exact
        ⟨rfl, fun entry member =>
            inMemory entry (MemoryTier.mem_of_mem_get found member),
          fun _ => KeepsEntries.refl tree, inMemory _ (MemoryTier.mem_of_get found)⟩
  · split at finds
    · cases finds
    · next disk present =>
        split at finds
        · next changed stored found =>
            cases finds
            obtain ⟨keeps, has⟩ := DiskTier.get_eq_some rfl found
            have holdsHere := onDisk disk present key styled has
            exact ⟨rfl, inMemory.set holdsHere, keeps, holdsHere⟩
        · cases finds

/-- Where nothing is found, nothing changes unless a file that cannot be decoded is removed. -/
theorem lookup_eq_none
    (isIn : cache.IsIn tree.working directory)
    {key : Key} {used : Cache} {after : FileTree}
    (misses : cache.lookup tree key = (used, after, none)) :
    used = cache ∧
      (after = tree ∨
        ∃ file,
          tree.node? (directory ++ [key.fileName]) = some (.file file) ∧
            (∀ styled, Entry.decode file.bytes ≠ .ok styled) ∧
              after = tree.erase (directory ++ [key.fileName])) := by
  unfold lookup at misses
  split at misses
  · cases misses
  · split at misses
    · cases misses
      exact ⟨rfl, Or.inl rfl⟩
    · next disk present =>
        split at misses
        · cases misses
        · next changed missed =>
            cases misses
            exact
              ⟨rfl,
                DiskTier.eq_or_eq_erase_of_get (isIn disk present) missed⟩

/-- Where nothing is found, nothing changes if every entry of the key can be decoded. -/
theorem eq_of_lookup_eq_none
    {key : Key}
    (decodable : ∀ disk, cache.disk = some disk → ∀ bytes,
      tree.entryAt? (disk.config.directory.locationFrom tree.working) key = some bytes →
        ∃ styled, Entry.decode bytes = .ok styled)
    {used : Cache} {after : FileTree}
    (misses : cache.lookup tree key = (used, after, none)) :
    used = cache ∧ after = tree := by
  cases opened : cache.disk with
  | none =>
      unfold lookup at misses
      rw [opened] at misses
      split at misses <;> cases misses
      exact ⟨rfl, rfl⟩
  | some disk =>
      have isIn :
          cache.IsIn tree.working (disk.config.directory.locationFrom tree.working) := by
        intro other present
        rw [opened] at present
        cases present
        rfl
      obtain ⟨sameCache, sameTree | ⟨file, present, undecodable, _⟩⟩ :=
        lookup_eq_none isIn misses
      · exact ⟨sameCache, sameTree⟩
      · obtain ⟨styled, decodes⟩ :=
          decodable disk opened file.bytes (entryAt?_eq_some_iff.mpr ⟨file, present, rfl⟩)
        exact absurd decodes (undecodable styled)

/-- Where nothing is found there is no entry that can be decoded, as long as paths lead to the
entries. -/
theorem not_hasEntry_of_lookup_eq_none
    {disk : DiskTier} (present : cache.disk = some disk)
    {key : Key} (reaches : disk.Reaches tree directory key)
    {used : Cache} {after : FileTree}
    (misses : cache.lookup tree key = (used, after, none)) (styled : StyledText) :
    ¬tree.HasEntry directory key styled := by
  intro has
  obtain ⟨changed, found⟩ := DiskTier.exists_get_eq_some reaches has
  unfold lookup at misses
  split at misses
  · cases misses
  · rw [present] at misses
    dsimp only at misses
    rw [found] at misses
    cases misses

/-- Looking for a preview leaves the disk tier as it is. -/
theorem disk_lookup (cache : Cache) (tree : FileTree) (key : Key) :
    (cache.lookup tree key).1.disk = cache.disk := by
  unfold lookup
  repeat' split
  all_goals rfl

/-- Looking for a preview changes the tree as the disk tier does, if it changes it at all. -/
theorem related_lookup
    {Related : FileTree → FileTree → Prop} (refl : Related tree tree) {key : Key}
    (gets : ∀ disk, cache.disk = some disk → Related tree (disk.get tree key).1) :
    Related tree (cache.lookup tree key).2.1 := by
  unfold lookup
  split
  · exact refl
  · split
    · exact refl
    · next disk present =>
        have changed := gets disk present
        split
        all_goals
          next looks =>
            rw [looks] at changed
            exact changed

theorem losesEntries_lookup (isIn : cache.IsIn tree.working directory) (key : Key) :
    LosesEntries directory tree (cache.lookup tree key).2.1 :=
  related_lookup (LosesEntries.refl tree) fun disk present =>
    DiskTier.losesEntries_get (isIn disk present) key

/-- Writing a preview is left to the disk tier. -/
theorem write_of_disk
    {disk : DiskTier} (present : cache.disk = some disk) (tree : FileTree) (key : Key)
    (styled : StyledText) :
    cache.write tree key styled =
      ({ cache with disk := some (disk.set tree key styled).1 },
        (disk.set tree key styled).2) := by
  rw [write, present]

/-- Clearing empties memory and leaves the rest to the disk tier. -/
theorem clear_of_disk
    {disk : DiskTier} (present : cache.disk = some disk) (tree : FileTree) :
    cache.clear tree =
      (cache.clearMemory, (disk.clear tree).1, (disk.clear tree).2.map fun _ => ()) := by
  rw [clear, present]

/-- Clearing leaves nothing in memory and at most loses entries on disk. -/
theorem clear_spec (cache : Cache) (tree : FileTree) (directory : Location) :
    (cache.clear tree).1 = cache.clearMemory ∧
      LosesEntries directory tree (cache.clear tree).2.1 := by
  unfold clear
  split
  · exact ⟨rfl, LosesEntries.refl tree⟩
  · exact ⟨rfl, DiskTier.losesEntries_clear _ tree directory⟩

end Cache

end SourcePreview
