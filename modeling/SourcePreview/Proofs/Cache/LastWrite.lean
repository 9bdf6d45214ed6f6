import SourcePreview.Proofs.Cache.FiniteMap
import SourcePreview.Proofs.Cache.Tiers

/-!
# The last preview wins in both tiers

Whatever is evicted from memory, found on disk, overwritten, swept or opened again, a cache gives
out the preview that was put in last, or nothing.  This holds up to the last time it was cleared,
as long as clearing succeeded: an error leaves entries behind, and these are found again.
-/

namespace SourcePreview

namespace Cache

open FileTree

/-- What can be done with a cache. -/
inductive Operation where
  | insert (key : Key) (styled : StyledText)
  | lookup (key : Key)
  /-- Waits for what is to be written. -/
  | flush
  | clearMemory
  | clear
  /-- Sweeps the disk tier. -/
  | cleanup
  /-- Opens the cache again, as a process that has named so many temporary files, and with other
  bounds. -/
  | reopen (process named memoryEntries maxEntries maxBytes cleanupEvery : Nat)
  /-- Lets the clock go on. -/
  | wait (clock : Timestamp)

/-- A cache in use. -/
structure Session where
  cache : Cache
  tree : FileTree
  /-- The preview that was last put in under each key since the cache was last emptied. -/
  latest : Key → Option StyledText

namespace Session

/-- The session after an operation, once everything is written. -/
def after (session : Session) : Operation → Session
  | .insert key styled =>
    let written := session.cache.insert session.tree key styled
    ⟨written.1, written.2, Function.update session.latest key (some styled)⟩
  | .lookup key =>
    let used := session.cache.lookup session.tree key
    { session with cache := used.1, tree := used.2.1 }
  | .flush => session
  | .clearMemory => { session with cache := session.cache.clearMemory }
  | .clear =>
    let cleared := session.cache.clear session.tree
    ⟨cleared.1, cleared.2.1, if cleared.2.2.toBool then fun _ => none else session.latest⟩
  | .cleanup =>
    match session.cache.disk with
    | none => session
    | some disk => { session with tree := (disk.cleanup session.tree).1 }
  | .reopen process named memoryEntries maxEntries maxBytes cleanupEvery =>
    let config := session.cache.disk.map fun disk =>
      DiskConfig.mk disk.config.directory maxEntries maxBytes cleanupEvery
    let opened := Cache.openAt { session.tree with process, named } memoryEntries config
    { session with cache := opened.2, tree := opened.1 }
  | .wait clock => { session with tree := { session.tree with clock } }

/-- The session after some operations. -/
def run (session : Session) (operations : List Operation) : Session :=
  operations.foldl after session

/-- Whether what an operation puts into the cache can be written to disk. -/
def writes (session : Session) : Operation → Bool
  | .insert key styled =>
    session.cache.disk.all fun disk => (disk.store session.tree key styled).2.toBool
  | _ => true

/-- Whether everything that operations put into the cache can be written to disk. -/
def completes (session : Session) : List Operation → Bool
  | [] => true
  | operation :: operations =>
    session.writes operation && (session.after operation).completes operations

/-- A cache that was just opened. -/
def opened (tree : FileTree) (memoryEntries : Nat) (disk : Option DiskConfig) : Session :=
  let opened := Cache.openAt tree memoryEntries disk
  ⟨opened.2, opened.1, fun _ => none⟩

/-- Whether both tiers hold nothing but what was put in last. -/
structure IsLatest (session : Session) (directory : Location) : Prop where
  capacity : 0 < session.cache.memory.capacity
  memory : session.cache.memory.Holds fun key styled => session.latest key = some styled
  disk : ∀ disk, session.cache.disk = some disk →
    disk.Mirrors session.tree directory session.latest

end Session

section Step

variable {cache : Cache} {tree : FileTree} {directory : Location}

theorem lookup_of_find?
    {key : Key} {styled : StyledText} (tree : FileTree)
    (remembered : cache.memory.find? key = some styled) :
    (cache.lookup tree key).2.2 = some (styled, .memory) := by
  rw [lookup, MemoryTier.get, remembered]

/-- What was just found is in memory. -/
theorem find?_of_lookup
    {key : Key} {used : Cache} {after : FileTree} {styled : StyledText} {tier : Tier}
    (positive : 0 < cache.memory.capacity)
    (finds : cache.lookup tree key = (used, after, some (styled, tier))) :
    used.memory.find? key = some styled := by
  unfold lookup at finds
  split at finds
  · next found =>
      cases finds
      exact MemoryTier.find?_of_get found
  · split at finds
    · cases finds
    · split at finds
      · cases finds
        exact MemoryTier.find?_set_self positive
      · cases finds

theorem edits_lookup (cache : Cache) (tree : FileTree) (key : Key) :
    Edits tree (cache.lookup tree key).2.1 :=
  related_lookup (Edits.refl tree) fun disk _ => DiskTier.edits_get disk tree key

theorem capacity_lookup (cache : Cache) (tree : FileTree) (key : Key) :
    (cache.lookup tree key).1.memory.capacity = cache.memory.capacity := by
  unfold lookup
  split
  · next found =>
      unfold MemoryTier.get at found
      split at found
      · cases found
        rfl
      · cases found
  · repeat' split
    all_goals rfl

theorem insert_of_disk
    {disk : DiskTier} (present : cache.disk = some disk) (tree : FileTree) (key : Key)
    (styled : StyledText) :
    cache.insert tree key styled =
      (⟨cache.memory.set key styled, some (disk.set tree key styled).1⟩,
        (disk.set tree key styled).2) := by
  rw [insert, write_of_disk]
  · rfl
  · exact present

/-- An opened disk tier mirrors what was mirrored in its directory before. -/
theorem mirrors_openAt
    {latest : Key → Option StyledText} {config : Option DiskConfig}
    (mirrors : ∀ wanted, config = some wanted →
      (DiskTier.mk wanted 0).Mirrors tree directory latest)
    {memoryEntries : Nat} {disk : DiskTier}
    (present : (openAt tree memoryEntries config).2.disk = some disk) :
    disk.Mirrors (openAt tree memoryEntries config).1 directory latest := by
  unfold openAt at present ⊢
  cases config with
  | none => cases present
  | some wanted =>
      have edits := DiskTier.edits_openAt tree wanted
      have keeps := DiskTier.keepsEntries_openAt tree wanted directory
      dsimp only at present ⊢
      split at present
      · next opens =>
          cases present
          rw [opens] at edits keeps
          exact
            (mirrors wanted rfl).of_loses edits keeps.loses
              (congrArg DiskConfig.directory (DiskTier.config_of_openAt opens))
      · cases present

end Step

namespace Session

section Step

variable
    {session : Session} {directory : Location} (latest : session.IsLatest directory)

include latest

theorem IsLatest.isIn : session.cache.IsIn session.tree.working directory :=
  fun disk present => (latest.disk disk present).located

/-- What is found was put in last, and is in memory afterwards. -/
theorem IsLatest.of_lookup_eq_some
    {key : Key} {used : Cache} {after : FileTree} {styled : StyledText} {tier : Tier}
    (finds : session.cache.lookup session.tree key = (used, after, some (styled, tier))) :
    session.latest key = some styled ∧ used.memory.find? key = some styled ∧
      used.memory.Holds fun key styled => session.latest key = some styled := by
  have onDisk (disk : DiskTier) (present : session.cache.disk = some disk) :
      session.tree.EntriesHold (disk.config.directory.locationFrom session.tree.working)
        fun key styled => session.latest key = some styled := by
    intro other shown has
    rw [latest.isIn disk present] at has
    exact ((latest.disk disk present).hasEntry_iff.mp has).2.1
  obtain ⟨_, memory, _, isLatest⟩ := Cache.lookup_eq_some latest.memory onDisk finds
  exact ⟨isLatest, find?_of_lookup latest.capacity finds, memory⟩

theorem IsLatest.lookup (key : Key) : (session.after (.lookup key)).IsLatest directory := by
  have kept (disk : DiskTier) (present : session.cache.disk = some disk) :
      disk.Mirrors (session.cache.lookup session.tree key).2.1 directory session.latest :=
    (latest.disk disk present).of_loses (edits_lookup session.cache session.tree key)
      (losesEntries_lookup latest.isIn key) rfl
  refine ⟨?_, ?_, fun disk present => kept disk ?_⟩
  · rw [Session.after, capacity_lookup]
    exact latest.capacity
  · rw [Session.after]
    cases finds : session.cache.lookup session.tree key with
    | mk used rest =>
        obtain ⟨after, found⟩ := rest
        cases found with
        | some shown =>
            obtain ⟨styled, tier⟩ := shown
            exact (latest.of_lookup_eq_some finds).2.2
        | none =>
            rw [(lookup_eq_none latest.isIn finds).1]
            exact latest.memory
  · rw [Session.after, disk_lookup] at present
    exact present

theorem IsLatest.insert
    {key : Key} {styled : StyledText} (writes : session.writes (.insert key styled) = true) :
    (session.after (.insert key styled)).IsLatest directory := by
  have memory :
      (session.cache.memory.set key styled).Holds fun other found =>
        Function.update session.latest key (some styled) other = some found := by
    intro entry member
    rcases MemoryTier.mem_of_mem_set member with rfl | ⟨old, different⟩
    · exact Function.update_self ..
    · rw [Function.update_of_ne different]
      exact latest.memory entry old
  rw [Session.after]
  cases present : session.cache.disk with
  | none =>
      rw [Cache.insert, write, remember]
      dsimp only
      rw [present]
      exact ⟨latest.capacity, memory, fun disk isDisk => by cases isDisk⟩
  | some disk =>
      rw [Session.writes, present, Option.all_some] at writes
      have mirrors := (latest.disk disk present).set writes
      rw [insert_of_disk present]
      generalize disk.set session.tree key styled = written at mirrors
      refine ⟨latest.capacity, memory, fun other isWritten => ?_⟩
      rw [← Option.some.inj isWritten]
      exact mirrors

theorem IsLatest.clear : (session.after .clear).IsLatest directory := by
  rw [Session.after]
  cases present : session.cache.disk with
  | none =>
      rw [Cache.clear, present]
      exact
        ⟨latest.capacity, MemoryTier.holds_clear _,
          fun disk isDisk => by cases present ▸ isDisk⟩
  | some disk =>
      have mirrors := latest.disk disk present
      have kept :=
        mirrors.of_loses (DiskTier.edits_clear disk session.tree)
          (DiskTier.losesEntries_clear disk session.tree directory) rfl
      rw [clear_of_disk present]
      refine ⟨latest.capacity, MemoryTier.holds_clear _, fun same isDisk => ?_⟩
      obtain rfl : disk = same := Option.some.inj (present.symm.trans isDisk)
      dsimp only
      cases clears : disk.clear session.tree with
      | mk cleared result =>
          cases result with
          | error failure =>
              rw [clears] at kept
              exact kept
          | ok count =>
              have emptied := mirrors.clear (DiskTier.nodeAt_of_clear_eq_ok clears)
              rw [clears] at emptied
              exact emptied

theorem IsLatest.reopen (process named memoryEntries maxEntries maxBytes cleanupEvery : Nat) :
    IsLatest
      (session.after (.reopen process named memoryEntries maxEntries maxBytes cleanupEvery))
      directory := by
  have renumbered : Edits session.tree { session.tree with process, named } :=
    ⟨rfl, fun _ isDirectory => isDirectory, fun _ once => once⟩
  refine ⟨?_, ?_, fun disk present => ?_⟩
  · rw [Session.after, memory_openAt]
    exact Nat.lt_of_lt_of_le Nat.one_pos (Nat.le_max_right ..)
  · rw [Session.after, memory_openAt]
    exact MemoryTier.holds_empty memoryEntries
  · refine mirrors_openAt (fun wanted isWanted => ?_) present
    obtain ⟨old, isOld, rfl⟩ := Option.map_eq_some_iff.mp isWanted
    exact (latest.disk old isOld).of_loses renumbered ⟨rfl, fun _ => Or.inl rfl⟩ rfl

/-- Every operation leaves in both tiers nothing but what was put in last. -/
theorem IsLatest.after
    {operation : Operation} (writes : session.writes operation = true) :
    (session.after operation).IsLatest directory := by
  cases operation with
  | insert key styled => exact latest.insert writes
  | lookup key => exact latest.lookup key
  | flush => exact latest
  | clearMemory =>
      exact ⟨latest.capacity, MemoryTier.holds_clear _, latest.disk⟩
  | clear => exact latest.clear
  | cleanup =>
      rw [Session.after]
      split
      · exact latest
      · next disk present =>
          refine ⟨latest.capacity, latest.memory, fun swept isDisk => ?_⟩
          exact
            (latest.disk swept isDisk).of_loses (DiskTier.edits_cleanup disk session.tree)
              (DiskTier.losesEntries_cleanup disk session.tree directory) rfl
  | reopen process named memoryEntries maxEntries maxBytes cleanupEvery =>
      exact latest.reopen process named memoryEntries maxEntries maxBytes cleanupEvery
  | wait clock =>
      have waited : Edits session.tree { session.tree with clock } :=
        ⟨rfl, fun _ isDirectory => isDirectory, fun _ once => once⟩
      exact
        ⟨latest.capacity, latest.memory, fun disk present =>
          (latest.disk disk present).of_loses waited ⟨rfl, fun _ => Or.inl rfl⟩ rfl⟩

theorem IsLatest.run
    {operations : List Operation} (completes : session.completes operations = true) :
    (session.run operations).IsLatest directory := by
  induction operations generalizing session with
  | nil => exact latest
  | cons operation operations ih =>
      rw [Session.completes, Bool.and_eq_true] at completes
      exact ih (latest.after completes.1) completes.2

theorem IsLatest.latest_of_lookup
    {key : Key} {styled : StyledText} {tier : Tier}
    (found : (session.cache.lookup session.tree key).2.2 = some (styled, tier)) :
    session.latest key = some styled := by
  have finds :
      session.cache.lookup session.tree key =
        ((session.cache.lookup session.tree key).1,
          (session.cache.lookup session.tree key).2.1, some (styled, tier)) := by
    rw [← found]
  exact (latest.of_lookup_eq_some finds).1

/-- What was just found is found again in memory. -/
theorem IsLatest.lookup_again
    {key : Key} {styled : StyledText} {tier : Tier}
    (found : (session.cache.lookup session.tree key).2.2 = some (styled, tier)) :
    ((session.after (.lookup key)).cache.lookup (session.after (.lookup key)).tree key).2.2 =
      some (styled, .memory) := by
  cases finds : session.cache.lookup session.tree key with
  | mk used rest =>
      obtain ⟨after, result⟩ := rest
      rw [finds] at found
      cases found
      have remembered := (latest.of_lookup_eq_some finds).2.1
      rw [Session.after, finds]
      exact lookup_of_find? after remembered

end Step

/-- Only putting in a preview of a key gives it one. -/
theorem latest_run_eq_none
    {session : Session} {key : Key} (nothing : session.latest key = none)
    {operations : List Operation} (noInsert : ∀ styled, .insert key styled ∉ operations) :
    (session.run operations).latest key = none := by
  induction operations generalizing session with
  | nil => exact nothing
  | cons operation operations ih =>
      refine ih ?_ fun styled member => noInsert styled (List.mem_cons_of_mem _ member)
      cases operation with
      | insert other styled =>
          have different : key ≠ other := by
            rintro rfl
            exact noInsert styled List.mem_cons_self
          simp only [after]
          rw [Function.update_of_ne different]
          exact nothing
      | clear =>
          simp only [after]
          split
          · rfl
          · exact nothing
      | cleanup =>
          rw [after]
          split
          · exact nothing
          · exact nothing
      | lookup other => exact nothing
      | flush => exact nothing
      | clearMemory => exact nothing
      | reopen process named memoryEntries maxEntries maxBytes cleanupEvery => exact nothing
      | wait clock => exact nothing

/-- Whether a cache gives out nothing but what was put in last: what is found was, it is found in
memory right after, and nothing is found once clearing succeeded until it is put in again. -/
structure IsLastWrite (session : Session) : Prop where
  found : ∀ key styled tier,
    (session.cache.lookup session.tree key).2.2 = some (styled, tier) →
      session.latest key = some styled
  again : ∀ key styled tier,
    (session.cache.lookup session.tree key).2.2 = some (styled, tier) →
      ((session.after (.lookup key)).cache.lookup
        (session.after (.lookup key)).tree key).2.2 = some (styled, .memory)
  cleared : (session.cache.clear session.tree).2.2.toBool = true →
    ∀ operations, (session.after .clear).completes operations = true →
      ∀ key, (∀ styled, .insert key styled ∉ operations) →
        (((session.after .clear).run operations).cache.lookup
          ((session.after .clear).run operations).tree key).2.2 = none

theorem IsLatest.isLastWrite
    {session : Session} {directory : Location} (latest : session.IsLatest directory) :
    session.IsLastWrite := by
  refine ⟨fun _ _ _ => latest.latest_of_lookup, fun _ _ _ => latest.lookup_again, ?_⟩
  intro succeeds operations completes key noInsert
  have nothing : (session.after .clear).latest key = none := by
    simp only [Session.after]
    rw [if_pos succeeds]
  have left := latest.clear.run completes
  refine Option.eq_none_iff_forall_ne_some.mpr fun ⟨styled, tier⟩ found => ?_
  have isLatest := left.latest_of_lookup found
  rw [latest_run_eq_none nothing noInsert] at isLatest
  cases isLatest

/-- A cache that was just opened in a directory without entries holds nothing. -/
theorem isLatest_opened
    {tree : FileTree} {disk : Option DiskConfig}
    (noEntries : ∀ config, disk = some config → ∀ key,
      tree.entryAt? (config.directory.locationFrom tree.working) key = none)
    (memoryEntries : Nat) :
    ∃ directory, (opened tree memoryEntries disk).IsLatest directory := by
  have latest {directory : Location}
      (mirrors : ∀ config, disk = some config →
        (DiskTier.mk config 0).Mirrors tree directory fun _ => none) :
      (opened tree memoryEntries disk).IsLatest directory := by
    refine ⟨?_, ?_, fun tier present => mirrors_openAt mirrors present⟩
    · rw [opened, memory_openAt]
      exact Nat.lt_of_lt_of_le Nat.one_pos (Nat.le_max_right ..)
    · rw [opened, memory_openAt]
      exact MemoryTier.holds_empty memoryEntries
  cases disk with
  | none => exact ⟨[], latest fun config none => by cases none⟩
  | some config =>
      refine ⟨config.directory.locationFrom tree.working, latest fun same isSame => ?_⟩
      cases isSame
      exact DiskTier.mirrors_of_noEntries (noEntries config rfl)

/-- At every point of every use in which all writes succeed, a cache that was opened in a directory
without entries gives out nothing but what was put in last. -/
theorem isLastWrite_run
    {tree : FileTree} {disk : Option DiskConfig}
    (noEntries : ∀ config, disk = some config → ∀ key,
      tree.entryAt? (config.directory.locationFrom tree.working) key = none)
    {memoryEntries : Nat} {operations : List Operation}
    (completes : (opened tree memoryEntries disk).completes operations = true) :
    ((opened tree memoryEntries disk).run operations).IsLastWrite := by
  obtain ⟨directory, latest⟩ := isLatest_opened noEntries memoryEntries
  exact (latest.run completes).isLastWrite

/-- Where the entries of the sample caches are, and how many there may be. -/
def sampleConfig (directory : Path) : DiskConfig :=
  ⟨directory, 2, 10000, 20⟩

/-- After two previews of one key the second one is found, also if it is no longer in memory. -/
theorem isLastWrite_run_sample :
    ∃ session,
      session =
          (opened DiskTier.Session.sampleTree 1 (some (sampleConfig (.ofString "c")))).run
            [.insert (DiskTier.Session.sampleKey 0) (DiskTier.Session.sampleStyled "1"),
              .insert (DiskTier.Session.sampleKey 0) (DiskTier.Session.sampleStyled "2"),
              .clearMemory] ∧
        session.IsLastWrite ∧
        (session.cache.lookup session.tree (DiskTier.Session.sampleKey 0)).2.2 =
          some (DiskTier.Session.sampleStyled "2", .disk) := by
  refine
    ⟨_, rfl, isLastWrite_run (fun config isConfig key => ?_) (by decide +kernel),
      by decide +kernel⟩
  cases isConfig
  exact DiskTier.Session.entryAt?_sampleTree key

/-- The preview that was last put in under each key since the cache was last to be emptied, whether
or not that succeeded. -/
def insertedSinceClear (operations : List Operation) : Key → Option StyledText :=
  operations.foldl
    (fun latest operation =>
      match operation with
      | .insert key styled => Function.update latest key (some styled)
      | .clear => fun _ => none
      | _ => latest)
    fun _ => none

/-- A preview can be found again although the cache was to be emptied and nothing was put in since:
entries below the empty path can be written and read, but they cannot be listed and so not be
removed. -/
theorem found_after_failed_clear :
    ¬∀ (tree : FileTree) (memoryEntries : Nat) (disk : Option DiskConfig)
        (operations : List Operation),
      (∀ config, disk = some config → ∀ key,
        tree.entryAt? (config.directory.locationFrom tree.working) key = none) →
      (opened tree memoryEntries disk).completes operations = true →
        ∀ key styled tier,
          (((opened tree memoryEntries disk).run operations).cache.lookup
              ((opened tree memoryEntries disk).run operations).tree key).2.2 =
              some (styled, tier) →
            insertedSinceClear operations key = some styled := by
  intro everyFound
  have found :=
    everyFound (.empty ⟨0⟩) 1 (some (sampleConfig ⟨[]⟩))
      [.insert (DiskTier.Session.sampleKey 0) (DiskTier.Session.sampleStyled "1"), .clear]
      (fun config _ key => entryAt?_eq_none (if_neg (append_fileName_ne_nil _ key)))
      (by decide +kernel) (DiskTier.Session.sampleKey 0) (DiskTier.Session.sampleStyled "1")
      .disk (by decide +kernel)
  cases found

end Session

end Cache

end SourcePreview
