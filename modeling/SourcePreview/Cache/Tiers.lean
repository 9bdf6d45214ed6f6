import SourcePreview.Cache.Disk
import SourcePreview.Cache.Memory
import SourcePreview.Cache.Tier

/-!
# The two tiers together

A preview is looked for in memory first and then on disk, and one that is found on disk is put
into memory too.  Where the disk tier cannot be opened there is only memory.
-/

namespace SourcePreview

/-- A cache of finished previews. -/
structure Cache where
  memory : MemoryTier Key StyledText
  disk : Option DiskTier

namespace Cache

/-- Opens a cache for so many previews in memory and, if it is wanted and possible, more on
disk. -/
def openAt (tree : FileTree) (memoryEntries : Nat) (disk : Option DiskConfig) :
    FileTree × Cache :=
  match disk with
  | none => (tree, ⟨.empty memoryEntries, none⟩)
  | some config =>
    match DiskTier.openAt tree config with
    | (opened, .ok tier) => (opened, ⟨.empty memoryEntries, some tier⟩)
    | (opened, .error _) => (opened, ⟨.empty memoryEntries, none⟩)

/-- Whether previews outlive the process. -/
def isPersistent (cache : Cache) : Bool :=
  cache.disk.isSome

/-- The cache with a preview in memory. -/
def remember (cache : Cache) (key : Key) (styled : StyledText) : Cache :=
  { cache with memory := cache.memory.set key styled }

/-- The preview of a key and the tier it was found in, with the cache and the tree after its
use. -/
def lookup (cache : Cache) (tree : FileTree) (key : Key) :
    Cache × FileTree × Option (StyledText × Tier) :=
  match cache.memory.get key with
  | (some styled, memory) => ({ cache with memory }, tree, some (styled, .memory))
  | (none, _) =>
    match cache.disk with
    | none => (cache, tree, none)
    | some disk =>
      match disk.get tree key with
      | (used, some styled) => (cache.remember key styled, used, some (styled, .disk))
      | (used, none) => (cache, used, none)

/-- Writes a preview to disk. -/
def write (cache : Cache) (tree : FileTree) (key : Key) (styled : StyledText) :
    Cache × FileTree :=
  match cache.disk with
  | none => (cache, tree)
  | some disk =>
    let (disk, changed) := disk.set tree key styled
    ({ cache with disk := some disk }, changed)

/-- Puts a preview into both tiers. -/
def insert (cache : Cache) (tree : FileTree) (key : Key) (styled : StyledText) :
    Cache × FileTree :=
  (cache.remember key styled).write tree key styled

/-- The cache with nothing in memory. -/
def clearMemory (cache : Cache) : Cache :=
  { cache with memory := cache.memory.clear }

/-- Empties both tiers. -/
def clear (cache : Cache) (tree : FileTree) : Cache × FileTree × Except CacheError Unit :=
  match cache.disk with
  | none => (cache.clearMemory, tree, .ok ())
  | some disk =>
    let (changed, result) := disk.clear tree
    (cache.clearMemory, changed, result.map fun _ => ())

/-- The number of the entries on disk and of their bytes, if they can be counted. -/
def diskStats (cache : Cache) (tree : FileTree) : FileTree × Option DiskTier.Stats :=
  match cache.disk with
  | none => (tree, none)
  | some disk =>
    let (changed, result) := disk.stats tree
    (changed, result.toOption)

end Cache

end SourcePreview
