import SourcePreview.Proofs.Cache.FiniteMap
import SourcePreview.Proofs.Cache.Recency
import SourcePreview.Proofs.Cache.Sweeping

/-!
# Sweeps follow the order of use

The disk tier remembers what was used last only by the modification times of its files.  Writing
an entry and finding it give its file the time of the moment, which is later than all times before
it, and nothing else changes the time of a file.  So the files are as old as the last uses of their
keys, and a sweep removes those used longest ago, no more of them than it must.
-/

namespace SourcePreview

namespace Timestamp

instance : PartialOrder Timestamp where
  le_refl time := Int.le_refl time.nanoseconds
  le_trans _ _ _ := Int.le_trans
  lt_iff_le_not_ge _ _ := Int.lt_iff_le_and_not_ge
  le_antisymm := by
    rintro ⟨first⟩ ⟨second⟩ before after
    rw [Timestamp.mk.injEq]
    exact Int.le_antisymm before after

end Timestamp

namespace FileTree

theorem clock_lt_clock_tick (tree : FileTree) : tree.clock < tree.tick.clock :=
  Int.lt_succ tree.clock.nanoseconds

/-- The time of the latest change of the entry of a key in the directory at a location. -/
def changedAt? (tree : FileTree) (directory : Location) (key : Key) : Option Timestamp :=
  match tree.node? (directory ++ [key.fileName]) with
  | some (.file file) => some file.modified
  | _ => none

theorem changedAt?_eq_some_iff
    {tree : FileTree} {directory : Location} {key : Key} {time : Timestamp} :
    tree.changedAt? directory key = some time ↔
      ∃ file,
        tree.node? (directory ++ [key.fileName]) = some (.file file) ∧ file.modified = time := by
  unfold changedAt?
  split
  · next file present => simp [present]
  · next absent =>
      constructor
      · intro none
        cases none
      · rintro ⟨file, present, _⟩
        exact absurd present (absent file)

theorem changedAt?_congr
    {before after : FileTree} {directory : Location} {key : Key}
    (same :
      after.node? (directory ++ [key.fileName]) =
        before.node? (directory ++ [key.fileName])) :
    after.changedAt? directory key = before.changedAt? directory key := by
  rw [changedAt?, changedAt?, same]

/-- An entry has a time if it is there. -/
theorem isSome_changedAt?_iff {tree : FileTree} {directory : Location} {key : Key} :
    (tree.changedAt? directory key).isSome ↔ (tree.entryAt? directory key).isSome := by
  unfold changedAt? entryAt?
  cases tree.node? (directory ++ [key.fileName]) with
  | none => exact Iff.rfl
  | some node => cases node <;> exact Iff.rfl

/-- Whether a change has not set back the clock and has left the times of the entries of a
directory as they were, except of those that it may have removed. -/
structure KeepsTimes (directory : Location) (before after : FileTree) : Prop where
  clock : before.clock ≤ after.clock
  changedAt? : ∀ {key time},
    after.changedAt? directory key = some time → before.changedAt? directory key = some time

/-- Whether a change has given the entry of a key the time of the moment, and has left the times of
all other entries of a directory as they were. -/
structure MarksUse (directory : Location) (key : Key) (before after : FileTree) : Prop where
  clock : before.clock < after.clock
  changedAt? : ∀ other,
    after.changedAt? directory other =
      if other = key then some after.clock else before.changedAt? directory other

section

variable {directory : Location} {first second third : FileTree}

theorem KeepsTimes.refl (tree : FileTree) : KeepsTimes directory tree tree :=
  ⟨le_refl tree.clock, id⟩

theorem KeepsTimes.trans
    (earlier : KeepsTimes directory first second) (later : KeepsTimes directory second third) :
    KeepsTimes directory first third :=
  ⟨earlier.clock.trans later.clock, fun changed => earlier.changedAt? (later.changedAt? changed)⟩

end

/-- What keeps all files of entries or removes them keeps their times. -/
theorem keepsTimes_of_node?
    {directory : Location} {before after : FileTree} (clock : before.clock ≤ after.clock)
    (files : ∀ (key : Key) file,
      after.node? (directory ++ [key.fileName]) = some (.file file) →
        before.node? (directory ++ [key.fileName]) = some (.file file)) :
    KeepsTimes directory before after := by
  refine ⟨clock, fun changed => ?_⟩
  obtain ⟨file, present, isTime⟩ := changedAt?_eq_some_iff.mp changed
  exact changedAt?_eq_some_iff.mpr ⟨file, files _ file present, isTime⟩

theorem AddsDirectories.keepsTimes
    {before after : FileTree} (adds : AddsDirectories before after)
    (clock : before.clock ≤ after.clock) (directory : Location) :
    KeepsTimes directory before after := by
  refine keepsTimes_of_node? clock fun key file present => ?_
  rcases adds.node? (directory ++ [key.fileName]) with same | ⟨_, added⟩
  · rwa [same] at present
  · rw [added] at present
    cases present

theorem clock_createDirectories (tree : FileTree) (path : Path) :
    (tree.createDirectories path).1.clock = tree.clock :=
  @related_createDirectories (fun before after => after.clock = before.clock) (fun _ => rfl)
    (fun earlier later => later.trans earlier) (fun _ => rfl) tree path

theorem keepsTimes_erase (tree : FileTree) (directory location : Location) :
    KeepsTimes directory tree (tree.erase location) := by
  refine keepsTimes_of_node? (le_refl tree.clock) fun key file present => ?_
  rw [node?_erase _ _ (append_fileName_ne_nil directory key)] at present
  split at present
  · cases present
  · exact present

/-- A file with the time of the moment that is put in place of the entry of a key marks its use. -/
theorem marksUse_put
    {directory : Location} {key : Key} {before after : FileTree} {file : File}
    (clock : before.clock < after.clock) (now : file.modified = after.clock)
    (others : ∀ other : Key,
      after.node? (directory ++ [other.fileName]) =
        before.node? (directory ++ [other.fileName])) :
    MarksUse directory key before (after.put (directory ++ [key.fileName]) (.file file)) := by
  refine ⟨clock, fun other => ?_⟩
  have node :=
    node?_put after (directory ++ [key.fileName]) (.file file)
      (append_fileName_ne_nil directory other)
  simp only [append_fileName_inj] at node
  split at node
  · next same =>
      rw [if_pos same]
      exact changedAt?_eq_some_iff.mpr ⟨file, node, now⟩
  · next different =>
      rw [if_neg different]
      exact changedAt?_congr (node.trans (others other))

end FileTree

namespace DiskTier

open FileTree

theorem keepsTimes_removeTolerant (tree : FileTree) (path : Path) (directory : Location) :
    KeepsTimes directory tree (removeTolerant tree path).1 := by
  rcases removeTolerant_eq_or_eq_erase tree path with same | erased
  · rw [same]
    exact KeepsTimes.refl tree
  · rw [erased]
    exact keepsTimes_erase tree directory _

/-- Writing a temporary file changes no entry. -/
theorem node?_of_writeFile_child
    {tree written : FileTree} {path : Path} {name : String} {bytes : Bytes}
    (ends : (Text.encode name.toList).getLast? = some temporaryEnd)
    (writes : tree.writeFile (path.child name) bytes = .ok written)
    (directory : Location) (key : Key) :
    written.node? (directory ++ [key.fileName]) = tree.node? (directory ++ [key.fileName]) := by
  have noEntry := isNoEntry_child endsNoEntry_temporaryEnd path ends tree.working directory key
  rw [(eq_putBytes_of_writeFile writes).1, putBytes, node?_put_of_ne _ _ noEntry, node?_tick]

theorem keepsTimes_of_writeFile_child
    {tree written : FileTree} {path : Path} {name : String} {bytes : Bytes}
    (ends : (Text.encode name.toList).getLast? = some temporaryEnd)
    (writes : tree.writeFile (path.child name) bytes = .ok written)
    (directory : Location) :
    KeepsTimes directory tree written := by
  refine keepsTimes_of_node? ?_ fun key file present => ?_
  · rw [(eq_putBytes_of_writeFile writes).1]
    exact (clock_lt_clock_tick tree).le
  · rwa [node?_of_writeFile_child ends writes] at present

theorem keepsTimes_countName (tree : FileTree) (directory : Location) :
    KeepsTimes directory tree tree.countName :=
  keepsTimes_of_node? (le_refl tree.clock) fun _ _ present => present

/-- Opening the tier uses no entry. -/
theorem keepsTimes_openAt (tree : FileTree) (config : DiskConfig) (directory : Location) :
    KeepsTimes directory tree (openAt tree config).1 :=
  related_openAt (KeepsTimes directory) KeepsTimes.trans
    (fun tree => keepsTimes_countName tree directory)
    (fun ends writes => keepsTimes_of_writeFile_child ends writes directory)
    (fun tree _ _ => keepsTimes_removeTolerant tree _ directory) rfl
    ((addsDirectories_createDirectories tree config.directory).keepsTimes
      (clock_createDirectories tree config.directory).ge directory)

/-- Storing that fails uses no entry. -/
theorem keepsTimes_of_store_eq_error
    {tier : DiskTier} {tree after : FileTree} {key : Key} {styled : StyledText}
    {failure : CacheError} (fails : tier.store tree key styled = (after, .error failure))
    (directory : Location) :
    KeepsTimes directory tree after :=
  related_of_store_eq_error (KeepsTimes directory) KeepsTimes.trans
    (fun tree => keepsTimes_countName tree directory)
    (fun ends writes => keepsTimes_of_writeFile_child ends writes directory)
    (fun tree _ _ => keepsTimes_removeTolerant tree _ directory) rfl fails

section Removals

variable (tier : DiskTier) (tree : FileTree) (directory : Location)

theorem keepsTimes_scan : KeepsTimes directory tree (tier.scan tree).1 :=
  related_scan KeepsTimes.refl KeepsTimes.trans
    (fun tree _ _ => keepsTimes_removeTolerant tree _ directory) tree

theorem keepsTimes_cleanup : KeepsTimes directory tree (tier.cleanup tree).1 :=
  related_cleanup KeepsTimes.refl KeepsTimes.trans
    (fun tree _ => keepsTimes_removeTolerant tree _ directory)
    (fun tree => keepsTimes_scan tier tree directory) tree

theorem keepsTimes_settle : KeepsTimes directory tree (tier.settle tree).2 :=
  related_settle KeepsTimes.refl KeepsTimes.trans
    (fun tree _ => keepsTimes_removeTolerant tree _ directory)
    (fun tree => keepsTimes_scan tier tree directory) tree

theorem keepsTimes_clear : KeepsTimes directory tree (tier.clear tree).1 :=
  related_clear KeepsTimes.refl KeepsTimes.trans
    (fun tree _ => keepsTimes_removeTolerant tree _ directory)
    (fun tree => keepsTimes_scan tier tree directory) tree

end Removals

/-- By their use, files are in the order of their times. -/
theorem pairwise_byUse (entries : List (Key × File)) :
    (byUse entries).Pairwise fun earlier later =>
      earlier.2.modified ≤ later.2.modified := by
  refine (List.pairwise_mergeSort ?_ ?_ entries).imp of_decide_eq_true
  · intro first second third before after
    exact decide_eq_true ((of_decide_eq_true before).trans (of_decide_eq_true after))
  · intro first second
    rw [Bool.or_eq_true, decide_eq_true_eq, decide_eq_true_eq]
    exact Int.le_total first.2.modified.nanoseconds second.2.modified.nanoseconds

section Located

variable
    {tier : DiskTier} {tree after : FileTree} {directory : Location} {key : Key}
    {styled : StyledText}
    (located : tier.config.directory.locationFrom tree.working = directory)

include located

/-- Storing that succeeds uses the entry of its key. -/
theorem marksUse_of_store (stores : tier.store tree key styled = (after, .ok ())) :
    MarksUse directory key tree after := by
  obtain ⟨written, writes, renames⟩ := exists_of_store_eq_ok stores
  have ends := getLast?_temporaryName tree key.name
  have noEntry := isNoEntry_child endsNoEntry_temporaryEnd tier.config.directory ends tree.working
  have sameWorking := (edits_of_writeFile writes).working
  obtain ⟨file, _, moved, _, _, rfl⟩ := eq_put_of_renameFile renames
  rw [sameWorking, working_countName] at moved ⊢
  rw [locationFrom_entry located]
  refine marksUse_put ?_ ?_ fun other => ?_
  · rw [(eq_putBytes_of_writeFile writes).1]
    exact clock_lt_clock_tick tree
  · rw [eq_of_writeFile writes moved]
    rfl
  · rw [node?_erase_of_ne _ (noEntry directory other), node?_of_writeFile_child ends writes,
      node?_countName]

/-- A look that finds the entry of a key uses it. -/
theorem marksUse_of_get (found : tier.get tree key = (after, some styled)) :
    MarksUse directory key tree after := by
  rw [get_eq_readEntry] at found
  obtain ⟨_, _, _, touches⟩ := exists_of_readEntry_eq_some found
  obtain ⟨changed, _, rfl⟩ := eq_put_of_touch touches
  rw [locationFrom_entry located]
  exact marksUse_put (clock_lt_clock_tick tree) rfl fun _ => rfl

/-- A look that finds no entry uses none. -/
theorem keepsTimes_of_get_eq_none (misses : tier.get tree key = (after, none)) :
    KeepsTimes directory tree after := by
  rcases eq_or_eq_erase_of_get located misses with rfl | ⟨_, _, _, rfl⟩
  · exact KeepsTimes.refl after
  · exact keepsTimes_erase tree directory _

end Located

/-! ## Uses -/

/-- The key that an operation uses: one whose entry it writes or finds. -/
def Session.used? (session : Session) : Operation → Option Key
  | .store key styled | .set key styled =>
    if (session.tier.store session.tree key styled).2.toBool then some key else none
  | .get key => (session.tier.get session.tree key).2.map fun _ => key
  | _ => none

/-- A tier in use, and what was used of it. -/
structure History where
  session : Session
  /-- The keys that were used, the last one first. -/
  uses : List Key

namespace History

/-- The history after an operation. -/
def after (history : History) (operation : Operation) : History :=
  ⟨history.session.after operation,
    (history.session.used? operation).toList ++ history.uses⟩

/-- The history after some operations. -/
def run (history : History) (operations : List Operation) : History :=
  operations.foldl after history

/-- Whether an operation does not set back the clock. -/
def MovesOn (history : History) : Operation → Prop
  | .wait clock => history.session.tree.clock ≤ clock
  | _ => True

/-- Whether none of some operations sets back the clock. -/
def MovesOnThrough (history : History) : List Operation → Prop
  | [] => True
  | operation :: operations =>
    history.MovesOn operation ∧ (history.after operation).MovesOnThrough operations

/-- A tier that was just opened. -/
def opened (tier : DiskTier) (tree : FileTree) : History :=
  ⟨⟨tier, tree, fun _ => none⟩, []⟩

/-- The keys with entries in the order of their last use, the one used longest ago first. -/
def byLastUse (history : History) (directory : Location) : List Key :=
  (MemoryTier.recency history.uses).reverse.filter fun key =>
    (history.session.tree.entryAt? directory key).isSome

end History

/-- The number of bytes of the entries of some keys. -/
def bytesOf (tree : FileTree) (directory : Location) (keys : List Key) : Nat :=
  (keys.map fun key => ((tree.entryAt? directory key).getD []).length).sum

/-- Whether the entries of some keys are within both bounds of a tier. -/
def Fits (config : DiskConfig) (tree : FileTree) (directory : Location) (keys : List Key) : Prop :=
  keys.length ≤ config.maxEntries ∧ bytesOf tree directory keys ≤ config.maxBytes

/-- Files are within the bounds if the entries of their keys are. -/
theorem fits_map_iff_isWithin
    {config : DiskConfig} {tree : FileTree} {directory : Location} {entries : List (Key × File)}
    (present : ∀ entry ∈ entries,
      tree.node? (directory ++ [entry.1.fileName]) = some (.file entry.2)) :
    Fits config tree directory (entries.map Prod.fst) ↔ IsWithin config entries := by
  have bytes : bytesOf tree directory (entries.map Prod.fst) = totalBytes entries := by
    rw [bytesOf, totalBytes, List.map_map]
    congr 1
    refine List.map_congr_left fun entry member => ?_
    rw [Function.comp_apply, entryAt?_eq_some_iff.mpr ⟨entry.2, present entry member, rfl⟩,
      Option.getD_some, File.bytes, List.length_append, List.length_replicate, File.size]
  rw [Fits, IsWithin, List.length_map, bytes]

/-- Whether the entries of the first keys are removed, so many of them that the others are within
the bounds, and no more. -/
structure SweepsFirst
    (config : DiskConfig) (directory : Location) (keys : List Key) (before after : FileTree)
    (count : Nat) : Prop where
  count_le : count ≤ keys.length
  removes : Removes directory (keys.take count) before after
  fits : Fits config before directory (keys.drop count)
  needed : ∀ fewer < count, ¬Fits config before directory (keys.drop fewer)

/-- The last of the keys is not removed if its entry is within the bounds. -/
theorem SweepsFirst.isSome_last
    {config : DiskConfig} {directory : Location} {keys : List Key} {before after : FileTree}
    {count : Nat} (sweeps : SweepsFirst config directory keys before after count)
    (nodup : keys.Nodup) {key : Key} (last : keys.getLast? = some key)
    (isSome : (before.entryAt? directory key).isSome)
    (fits : Fits config before directory [key]) :
    (after.entryAt? directory key).isSome := by
  obtain ⟨others, rfl⟩ := List.getLast?_eq_some_iff.mp last
  have few : count ≤ others.length := by
    by_contra many
    refine sweeps.needed others.length (Nat.lt_of_not_le many) ?_
    rwa [List.drop_left]
  rw [sweeps.removes key, List.take_append_of_le_length few, if_neg]
  · exact isSome
  · intro member
    have disjoint := (List.nodup_append'.mp nodup).2.2
    exact disjoint (List.mem_of_mem_take member) (List.mem_singleton.mpr rfl)

namespace History

/-- Whether the sweeps of a tier follow the order of use. -/
structure SweepsByUse (history : History) (directory : Location) : Prop where
  nodup : (history.byLastUse directory).Nodup
  mem_iff : ∀ key, key ∈ history.byLastUse directory ↔ history.session.Has directory key
  cleanup : ∃ count,
    (history.session.tier.cleanup history.session.tree).2 = .ok count ∧
      SweepsFirst history.session.tier.config directory (history.byLastUse directory)
        history.session.tree (history.after .cleanup).session.tree count
  set : ∀ key styled,
    history.session.MayRemove (.set key styled) →
      ∃ count,
        SweepsFirst history.session.tier.config directory
          ((history.after (.store key styled)).byLastUse directory)
          (history.after (.store key styled)).session.tree
          (history.after (.set key styled)).session.tree count
  last : ∀ key,
    (history.byLastUse directory).getLast? = some key →
      Fits history.session.tier.config history.session.tree directory [key] →
        (history.after .cleanup).session.Has directory key
  written : ∀ key styled,
    history.session.MayRemove (.set key styled) →
      Fits history.session.tier.config (history.after (.store key styled)).session.tree directory
          [key] →
        (history.after (.set key styled)).session.Has directory key

/-- Whether the entry of one key was changed before that of another one, if both are there. -/
def IsOlder (tree : FileTree) (directory : Location) (earlier later : Key) : Prop :=
  ∀ first second,
    tree.changedAt? directory earlier = some first →
      tree.changedAt? directory later = some second → first < second

/-- Whether the entry of one key was not changed after that of another one, if both are there. -/
def IsNotYounger (tree : FileTree) (directory : Location) (earlier later : Key) : Prop :=
  ∀ first second,
    tree.changedAt? directory earlier = some first →
      tree.changedAt? directory later = some second → first ≤ second

/-- Whether the times of the entries show in which order they were used. -/
structure IsTimed (history : History) (directory : Location) : Prop where
  current : history.session.IsCurrent directory
  past : ∀ {key time},
    history.session.tree.changedAt? directory key = some time →
      time ≤ history.session.tree.clock
  used : ∀ {key time},
    history.session.tree.changedAt? directory key = some time → key ∈ history.uses
  ordered : (MemoryTier.recency history.uses).Pairwise fun later earlier =>
    IsOlder history.session.tree directory earlier later

section Step

variable {history next : History} {directory : Location} (timed : history.IsTimed directory)

include timed

/-- What uses no entry leaves the order as it was. -/
theorem IsTimed.of_keepsTimes
    (current : next.session.IsCurrent directory) (sameUses : next.uses = history.uses)
    (keeps : KeepsTimes directory history.session.tree next.session.tree) :
    next.IsTimed directory := by
  refine ⟨current, fun changed => ?_, fun changed => ?_, ?_⟩
  · exact (timed.past (keeps.changedAt? changed)).trans keeps.clock
  · rw [sameUses]
    exact timed.used (keeps.changedAt? changed)
  · rw [sameUses]
    refine timed.ordered.imp fun older first second isFirst isSecond => ?_
    exact older first second (keeps.changedAt? isFirst) (keeps.changedAt? isSecond)

/-- The entry that is used becomes the youngest one. -/
theorem IsTimed.of_marksUse
    (key : Key) (current : next.session.IsCurrent directory)
    (isUsed : next.uses = key :: history.uses)
    (marks : MarksUse directory key history.session.tree next.session.tree) :
    next.IsTimed directory := by
  have others {other : Key} (different : other ≠ key) :
      next.session.tree.changedAt? directory other =
        history.session.tree.changedAt? directory other := by
    rw [marks.changedAt?, if_neg different]
  refine ⟨current, fun {other} time changed => ?_, fun {other} _ changed => ?_, ?_⟩
  · rw [marks.changedAt?] at changed
    split at changed
    · cases changed
      exact le_refl _
    · exact (timed.past changed).trans marks.clock.le
  · rw [isUsed, List.mem_cons]
    by_cases same : other = key
    · exact Or.inl same
    · rw [others same] at changed
      exact Or.inr (timed.used changed)
  · rw [isUsed, MemoryTier.recency, List.pairwise_cons]
    constructor
    · intro earlier member first second isFirst isSecond
      have different : earlier ≠ key := by simpa using (List.mem_filter.mp member).2
      rw [others different] at isFirst
      rw [marks.changedAt?, if_pos rfl] at isSecond
      cases isSecond
      exact (timed.past isFirst).trans_lt marks.clock
    · refine (timed.ordered.filter _).imp_of_mem fun {later earlier} isLater isEarlier older => ?_
      have laterOther : later ≠ key := by simpa using (List.mem_filter.mp isLater).2
      have earlierOther : earlier ≠ key := by simpa using (List.mem_filter.mp isEarlier).2
      intro first second isFirst isSecond
      rw [others earlierOther] at isFirst
      rw [others laterOther] at isSecond
      exact older first second isFirst isSecond

theorem IsTimed.after_store (key : Key) (styled : StyledText) :
    (history.after (.store key styled)).IsTimed directory := by
  have current := timed.current.after_store key styled
  have isTree := Session.tree_after_store history.session key styled
  cases stores : history.session.tier.store history.session.tree key styled with
  | mk tree result =>
      rw [stores] at isTree
      cases result with
      | error failure =>
          refine timed.of_keepsTimes current ?_ ?_
          · rw [History.after, Session.used?, stores]
            rfl
          · rw [History.after, isTree]
            exact keepsTimes_of_store_eq_error stores directory
      | ok _ =>
          refine timed.of_marksUse key current ?_ ?_
          · rw [History.after, Session.used?, stores]
            rfl
          · rw [History.after, isTree]
            exact marksUse_of_store timed.current.mirrors.located stores

/-- Every operation keeps the order of the uses in the times of the entries. -/
theorem IsTimed.after {operation : Operation} (movesOn : history.MovesOn operation) :
    (history.after operation).IsTimed directory := by
  have current := timed.current.after operation
  cases operation with
  | store key styled => exact timed.after_store key styled
  | set key styled =>
      have stored := timed.after_store key styled
      have isSession := Session.after_set history.session key styled
      split at isSession
      · refine stored.of_keepsTimes current rfl ?_
        dsimp only [History.after]
        rw [isSession]
        exact keepsTimes_settle _ _ directory
      · refine stored.of_keepsTimes current rfl ?_
        dsimp only [History.after]
        rw [isSession]
        exact KeepsTimes.refl _
  | get key =>
      cases found : history.session.tier.get history.session.tree key with
      | mk tree result =>
          have isTree : (history.session.after (.get key)).tree = tree :=
            congrArg Prod.fst found
          cases result with
          | some styled =>
              refine timed.of_marksUse key current ?_ ?_
              · rw [History.after, Session.used?, found]
                rfl
              · rw [History.after, isTree]
                exact marksUse_of_get timed.current.mirrors.located found
          | none =>
              refine timed.of_keepsTimes current ?_ ?_
              · rw [History.after, Session.used?, found]
                rfl
              · rw [History.after, isTree]
                exact keepsTimes_of_get_eq_none timed.current.mirrors.located found
  | stats =>
      refine timed.of_keepsTimes current rfl ?_
      rw [History.after, Session.after, Session.stats_fst]
      exact keepsTimes_scan _ _ directory
  | cleanup => exact timed.of_keepsTimes current rfl (keepsTimes_cleanup _ _ directory)
  | clear => exact timed.of_keepsTimes current rfl (keepsTimes_clear _ _ directory)
  | reopen process named maxEntries maxBytes cleanupEvery =>
      have keeps :=
        keepsTimes_openAt { history.session.tree with process, named }
          ⟨history.session.tier.config.directory, maxEntries, maxBytes, cleanupEvery⟩ directory
      exact timed.of_keepsTimes current rfl ⟨keeps.clock, keeps.changedAt?⟩
  | wait clock => exact timed.of_keepsTimes current rfl ⟨movesOn, id⟩

theorem IsTimed.run {operations : List Operation} (movesOn : history.MovesOnThrough operations) :
    (history.run operations).IsTimed directory := by
  induction operations generalizing history with
  | nil => exact timed
  | cons operation operations ih => exact ih (timed.after movesOn.1) movesOn.2

/-! ## Sweeps -/

omit timed in
theorem nodup_byLastUse (history : History) (directory : Location) :
    (history.byLastUse directory).Nodup :=
  (List.nodup_reverse.mpr (MemoryTier.nodup_recency history.uses)).filter _

theorem IsTimed.mem_byLastUse_iff {key : Key} :
    key ∈ history.byLastUse directory ↔
      (history.session.tree.entryAt? directory key).isSome := by
  rw [byLastUse, List.mem_filter, List.mem_reverse, MemoryTier.mem_recency_iff]
  refine ⟨And.right, fun isSome => ⟨?_, isSome⟩⟩
  obtain ⟨time, changed⟩ := Option.isSome_iff_exists.mp (isSome_changedAt?_iff.mpr isSome)
  exact timed.used changed

theorem IsTimed.mem_byLastUse_of_changedAt?
    {key : Key} {time : Timestamp}
    (changed : history.session.tree.changedAt? directory key = some time) :
    key ∈ history.byLastUse directory := by
  rw [timed.mem_byLastUse_iff, ← isSome_changedAt?_iff, changed]
  rfl

theorem IsTimed.pairwise_byLastUse :
    (history.byLastUse directory).Pairwise (IsOlder history.session.tree directory) :=
  (List.pairwise_reverse.mpr timed.ordered).filter _

/-- No two entries have the same time. -/
theorem IsTimed.eq_of_changedAt?
    {first second : Key} {time : Timestamp}
    (isFirst : history.session.tree.changedAt? directory first = some time)
    (isSecond : history.session.tree.changedAt? directory second = some time) :
    first = second := by
  have apart :
      ((history.byLastUse directory).map
        (history.session.tree.changedAt? directory)).Nodup := by
    rw [List.Nodup, List.pairwise_map]
    refine timed.pairwise_byLastUse.imp_of_mem fun {earlier later} member _ older same => ?_
    rw [timed.mem_byLastUse_iff, ← isSome_changedAt?_iff, Option.isSome_iff_exists] at member
    obtain ⟨time, changed⟩ := member
    exact lt_irrefl time (older time time changed (same ▸ changed))
  exact
    List.inj_on_of_nodup_map apart (timed.mem_byLastUse_of_changedAt? isFirst)
      (timed.mem_byLastUse_of_changedAt? isSecond) (isFirst.trans isSecond.symm)

/-- The files that are listed, from the oldest to the youngest, are those of the keys in the order
of their last use. -/
theorem IsTimed.keys_byUse :
    (byUse (history.session.tier.listing history.session.tree directory)).map Prod.fst =
      history.byLastUse directory := by
  have listing := timed.current.mirrors.toIsOrderly.isListing_listing
  have perm := byUse_perm (history.session.tier.listing history.session.tree directory)
  have changed {entry : Key × File}
      (member : entry ∈ byUse (history.session.tier.listing history.session.tree directory)) :
      history.session.tree.changedAt? directory entry.1 = some entry.2.modified :=
    changedAt?_eq_some_iff.mpr ⟨entry.2, listing.mem_iff.mp (perm.mem_iff.mp member), rfl⟩
  have sorted :
      ((byUse (history.session.tier.listing history.session.tree directory)).map
        Prod.fst).Pairwise (IsNotYounger history.session.tree directory) := by
    rw [List.pairwise_map]
    refine (pairwise_byUse _).imp_of_mem fun {earlier later} isEarlier isLater inOrder => ?_
    intro first second isFirst isSecond
    rw [changed isEarlier] at isFirst
    rw [changed isLater] at isSecond
    cases isFirst
    cases isSecond
    exact inOrder
  have ordered :
      (history.byLastUse directory).Pairwise (IsNotYounger history.session.tree directory) :=
    timed.pairwise_byLastUse.imp fun older first second isFirst isSecond =>
      (older first second isFirst isSecond).le
  have samePerm :
      ((byUse (history.session.tier.listing history.session.tree directory)).map
        Prod.fst).Perm (history.byLastUse directory) := by
    apply (perm.map Prod.fst).trans
    rw [List.perm_ext_iff_of_nodup listing.nodup (nodup_byLastUse history directory)]
    intro key
    rw [listing.mem_keys_iff, timed.mem_byLastUse_iff]
  refine samePerm.eq_of_pairwise (fun first second isFirst isSecond before after => ?_)
    sorted ordered
  obtain ⟨⟨key, file⟩, member, rfl⟩ := List.mem_map.mp isFirst
  rw [timed.mem_byLastUse_iff, ← isSome_changedAt?_iff, Option.isSome_iff_exists] at isSecond
  obtain ⟨time, changedSecond⟩ := isSecond
  have same : file.modified = time :=
    le_antisymm (before _ _ (changed member) changedSecond)
      (after _ _ changedSecond (changed member))
  exact timed.eq_of_changedAt? (changed member) (same ▸ changedSecond)

/-- A sweep removes the entries used longest ago, and no more of them than it must. -/
theorem IsTimed.sweepsFirst_cleanup :
    ∃ count,
      (history.session.tier.cleanup history.session.tree).2 = .ok count ∧
        SweepsFirst history.session.tier.config directory (history.byLastUse directory)
          history.session.tree (history.session.tier.cleanup history.session.tree).1 count := by
  have orderly := timed.current.mirrors.toIsOrderly
  have listing := orderly.isListing_listing
  obtain ⟨removed, kept, after, split, cleans, removes, fits, needed⟩ :=
    orderly.cleanup_spec timed.current.isDirectory
  have within {entries : List (Key × File)}
      (inside : entries ⊆ byUse (history.session.tier.listing history.session.tree directory)) :
      Fits history.session.tier.config history.session.tree directory (entries.map Prod.fst) ↔
        IsWithin history.session.tier.config entries := by
    apply fits_map_iff_isWithin
    intro entry member
    exact listing.mem_iff.mp ((byUse_perm _).mem_iff.mp (inside member))
  rw [← timed.keys_byUse, cleans]
  refine ⟨removed.length, rfl, ?_, ?_, ?_, fun fewer few => ?_⟩
  · rw [List.length_map, ← split, List.length_append]
    exact Nat.le_add_right _ _
  · rw [← List.map_take, ← split, List.take_left]
    exact removes
  · rw [← List.map_drop, ← split, List.drop_left, within (split ▸ List.subset_append_right ..)]
    exact fits
  · rw [← List.map_drop, within (List.drop_subset ..)]
    exact needed fewer few

/-- The sweep that follows a write removes the entries used longest ago, the one that was written
being used last. -/
theorem IsTimed.sweepsFirst_set
    {key : Key} {styled : StyledText} (mayRemove : history.session.MayRemove (.set key styled)) :
    ∃ count,
      SweepsFirst history.session.tier.config directory
        ((history.after (.store key styled)).byLastUse directory)
        (history.after (.store key styled)).session.tree
        (history.after (.set key styled)).session.tree count := by
  obtain ⟨succeeds, due⟩ := mayRemove
  obtain ⟨count, _, sweeps⟩ := (timed.after_store key styled).sweepsFirst_cleanup
  have sameTier : (history.after (.store key styled)).session.tier = history.session.tier :=
    Session.tier_after_store history.session key styled
  have isSwept :
      (history.after (.set key styled)).session.tree =
        ((history.after (.store key styled)).session.tier.cleanup
          (history.after (.store key styled)).session.tree).1 := by
    dsimp only [History.after] at sameTier ⊢
    rw [Session.after_set, if_pos succeeds, Session.settled,
      Session.settle_of_due (by rw [sameTier]; exact due)]
  refine ⟨count, ?_⟩
  rw [isSwept, ← sameTier]
  exact sweeps

omit timed in
/-- The entry that was used last is the last one in the order. -/
theorem getLast?_byLastUse
    {next : History} {key : Key} {earlier : List Key} (isUsed : next.uses = key :: earlier)
    (has : next.session.Has directory key) :
    (next.byLastUse directory).getLast? = some key := by
  rw [byLastUse, isUsed, MemoryTier.recency, List.reverse_cons, List.filter_append,
    List.filter_cons, if_pos (by exact has), List.filter_nil, List.getLast?_concat]

/-- Where the times of the entries show the order of the uses, sweeps follow it. -/
theorem IsTimed.sweepsByUse : history.SweepsByUse directory where
  nodup := nodup_byLastUse history directory
  mem_iff _ := timed.mem_byLastUse_iff
  cleanup := timed.sweepsFirst_cleanup
  set _ _ mayRemove := timed.sweepsFirst_set mayRemove
  last key last fits := by
    obtain ⟨count, _, sweeps⟩ := timed.sweepsFirst_cleanup
    have has := timed.mem_byLastUse_iff.mp (List.mem_of_getLast? last)
    exact sweeps.isSome_last (nodup_byLastUse history directory) last has fits
  written key styled mayRemove fits := by
    obtain ⟨count, sweeps⟩ := timed.sweepsFirst_set mayRemove
    obtain ⟨stored, stores⟩ := exists_store_eq_ok mayRemove.1
    have has : (history.after (.store key styled)).session.Has directory key := by
      rw [Session.Has, History.after, Session.tree_after_store, stores,
        (store_eq_ok timed.current.mirrors.located stores).2, if_pos rfl]
      rfl
    have isUsed : (history.after (.store key styled)).uses = key :: history.uses := by
      rw [History.after, Session.used?, if_pos mayRemove.1]
      rfl
    exact
      sweeps.isSome_last (nodup_byLastUse _ directory) (getLast?_byLastUse isUsed has) has fits

end Step

/-- Whatever was written, looked up and swept in a directory that had no entries, as long as the
clock is not set back, sweeps follow the order of use. -/
theorem sweepsByUse_run
    {tree : FileTree} {config : DiskConfig} {tier : DiskTier}
    (isDirectory : (openAt tree config).1.nodeAt config.directory = .ok .directory)
    (noEntries : ∀ key,
      tree.entryAt? (config.directory.locationFrom tree.working) key = none)
    (opens : (openAt tree config).2 = .ok tier) {operations : List Operation}
    (movesOn : (opened tier (openAt tree config).1).MovesOnThrough operations) :
    ((opened tier (openAt tree config).1).run operations).SweepsByUse
      (config.directory.locationFrom tree.working) := by
  have untimed {key : Key} {time : Timestamp}
      (changed :
        (openAt tree config).1.changedAt? (config.directory.locationFrom tree.working) key =
          some time) :
      False := by
    have isSome :=
      isSome_changedAt?_iff.mp
        (Option.isSome_iff_exists.mpr
          ⟨time, (keepsTimes_openAt tree config _).changedAt? changed⟩)
    rw [noEntries] at isSome
    cases isSome
  have timed :
      (opened tier (openAt tree config).1).IsTimed
        (config.directory.locationFrom tree.working) :=
    ⟨Session.isCurrent_of_isDirectory_openAt isDirectory noEntries opens,
      fun changed => (untimed changed).elim, fun changed => (untimed changed).elim,
      List.Pairwise.nil⟩
  exact (timed.run movesOn).sweepsByUse

/-- Three writes and a look at the first of them, between which the clock goes on, and a look for
something that is not there. -/
def sampleUses : List Operation :=
  [.store (Session.sampleKey 0) (Session.sampleStyled "1"),
    .store (Session.sampleKey 1) (Session.sampleStyled "2"), .wait ⟨100⟩,
    .get (Session.sampleKey 0), .get (Session.sampleKey 3),
    .store (Session.sampleKey 2) (Session.sampleStyled "3")]

/-- In the sample directory the entry that was not looked at is the one used longest ago. -/
theorem sweepsByUse_run_sample :
    ∃ history,
      history =
          (opened Session.sampleTier
            (openAt Session.sampleTree Session.sampleTier.config).1).run sampleUses ∧
        history.SweepsByUse
          (Session.sampleTier.config.directory.locationFrom Session.sampleTree.working) ∧
        history.byLastUse
            (Session.sampleTier.config.directory.locationFrom Session.sampleTree.working) =
          [Session.sampleKey 1, Session.sampleKey 0, Session.sampleKey 2] := by
  refine
    ⟨_, rfl,
      sweepsByUse_run Session.nodeAt_openAt_sampleTree Session.entryAt?_sampleTree
        Session.openAt_sampleTree ?_,
      ?_⟩
  · refine ⟨trivial, trivial, ?_, trivial, trivial, trivial, trivial⟩
    change _ ≤ (_ : Timestamp)
    decide +kernel
  · decide +kernel

end History

end DiskTier

end SourcePreview
