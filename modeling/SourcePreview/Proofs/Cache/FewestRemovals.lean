import SourcePreview.Proofs.Cache.NamedLookup
import SourcePreview.Proofs.Cache.SecondLook
import SourcePreview.Proofs.Cache.UseOrder

/-!
# Sweeps remove as little as they can

A sweep meets both bounds of a tier by removing the entries used longest ago, so many of them as it
must and no more, and what it keeps is not touched.  A second sweep finds nothing to do.  Where
entries were last used at the same time, a sweep takes them in the order of the listing, whatever
their sizes, so another choice among them may do with fewer removals.
-/

namespace SourcePreview.DiskTier

open FileTree

/-- Whether no entry that is removed was used after one that is left. -/
def IsOldestFirst (removed left : List (Key × File)) : Prop :=
  ∀ first ∈ removed, ∀ second ∈ left, first.2.modified ≤ second.2.modified

/-- Whether there is no way to remove fewer entries, oldest first, so that those that are left are
within both bounds. -/
def IsFewest (config : DiskConfig) (removed left : List (Key × File)) : Prop :=
  ∀ others rest,
    (others ++ rest).Perm (removed ++ left) →
      IsOldestFirst others rest → IsWithin config rest → removed.length ≤ others.length

/-- Whether entries that were last used at the same time have the same size. -/
def HaveSizesByTime (entries : List (Key × File)) : Prop :=
  ∀ first ∈ entries, ∀ second ∈ entries,
    first.2.modified = second.2.modified → first.2.size = second.2.size

instance (entries : List (Key × File)) : Decidable (HaveSizesByTime entries) :=
  inferInstanceAs (Decidable (∀ first ∈ entries, ∀ second ∈ entries, _ = _ → _ = _))

theorem totalBytes_perm {first second : List (Key × File)} (perm : first.Perm second) :
    totalBytes first = totalBytes second :=
  (perm.map fun entry : Key × File => entry.2.size).sum_nat

theorem IsWithin.of_perm
    {config : DiskConfig} {first second : List (Key × File)}
    (within : IsWithin config first) (perm : first.Perm second) :
    IsWithin config second := by
  rw [IsWithin, ← perm.length_eq, ← totalBytes_perm perm]
  exact within

/-- Entries whose times are the same one after the other have the same sizes one after the other, if
entries of the same time have the same size. -/
theorem map_size_eq_of_map_modified_eq
    {first second : List (Key × File)}
    (times :
      (first.map fun entry => entry.2.modified) = second.map fun entry => entry.2.modified)
    (sizes : ∀ left ∈ first, ∀ right ∈ second,
      left.2.modified = right.2.modified → left.2.size = right.2.size) :
    (first.map fun entry => entry.2.size) = second.map fun entry => entry.2.size := by
  induction first generalizing second with
  | nil =>
      obtain rfl := List.map_eq_nil_iff.mp times.symm
      rfl
  | cons left first ih =>
      obtain ⟨right, others, rfl, sameTime, sameTimes⟩ := List.map_eq_cons_iff.mp times.symm
      rw [List.map_cons, List.map_cons, sizes left (by simp) right (by simp) sameTime.symm,
        ih sameTimes.symm fun left isLeft right isRight =>
          sizes left (by simp [isLeft]) right (by simp [isRight])]

/-- If entries of the same time have the same size, the bytes that are left do not depend on which
entries were removed, oldest first, but only on how many. -/
theorem totalBytes_of_isOldestFirst
    {removed left order : List (Key × File)}
    (sorted : order.Pairwise fun earlier later => earlier.2.modified ≤ later.2.modified)
    (sizes : HaveSizesByTime order)
    (perm : (removed ++ left).Perm order) (oldestFirst : IsOldestFirst removed left) :
    totalBytes left = totalBytes (order.drop removed.length) := by
  have rearranged : (byUse removed ++ byUse left).Perm order :=
    ((byUse_perm removed).append (byUse_perm left)).trans perm
  have alsoSorted :
      (byUse removed ++ byUse left).Pairwise fun earlier later =>
        earlier.2.modified ≤ later.2.modified := by
    refine List.pairwise_append.mpr
      ⟨pairwise_byUse removed, pairwise_byUse left, fun first isFirst second isSecond => ?_⟩
    exact oldestFirst first ((byUse_perm removed).mem_iff.mp isFirst) second
      ((byUse_perm left).mem_iff.mp isSecond)
  have times :
      ((byUse removed ++ byUse left).map fun entry => entry.2.modified) =
        order.map fun entry => entry.2.modified :=
    (rearranged.map _).eq_of_pairwise (fun _ _ _ _ => le_antisymm)
      (List.pairwise_map.mpr alsoSorted) (List.pairwise_map.mpr sorted)
  have sameSizes :=
    map_size_eq_of_map_modified_eq times fun first isFirst second isSecond =>
      sizes first (rearranged.mem_iff.mp isFirst) second isSecond
  have length : removed.length = (byUse removed).length := (byUse_perm removed).length_eq.symm
  calc
    totalBytes left = totalBytes (byUse left) := totalBytes_perm (byUse_perm left).symm
    _ = totalBytes ((byUse removed ++ byUse left).drop removed.length) := by
      rw [length, List.drop_left]
    _ = totalBytes (order.drop removed.length) := by
      rw [totalBytes, totalBytes, List.map_drop, List.map_drop, sameSizes]

/-- What is removed in order, no more of it than must be, is as little as can be removed, if entries
of the same time have the same size. -/
theorem isFewest_of_needed
    {config : DiskConfig} {removed left : List (Key × File)}
    (sorted : (removed ++ left).Pairwise fun earlier later =>
      earlier.2.modified ≤ later.2.modified)
    (needed : ∀ fewer < removed.length, ¬IsWithin config ((removed ++ left).drop fewer))
    (sizes : HaveSizesByTime (removed ++ left)) :
    IsFewest config removed left := by
  intro others rest perm oldestFirst within
  by_contra fewer
  refine needed others.length (Nat.lt_of_not_le fewer) ?_
  have lengths := perm.length_eq
  rw [List.length_append] at lengths
  rw [IsWithin, ← totalBytes_of_isOldestFirst sorted sizes perm oldestFirst, List.length_drop,
    ← lengths, Nat.add_sub_cancel_left]
  exact within

section Listings

variable {tree after : FileTree} {directory : Location} {entries : List (Key × File)}

theorem IsListing.of_perm
    {others : List (Key × File)} (isListing : IsListing tree directory entries)
    (perm : others.Perm entries) :
    IsListing tree directory others where
  nodup := (perm.map Prod.fst).nodup_iff.mpr isListing.nodup
  mem_iff := perm.mem_iff.trans isListing.mem_iff

/-- Two listings of the same directory have the same entries. -/
theorem IsListing.perm
    {others : List (Key × File)} (isListing : IsListing tree directory entries)
    (isListingToo : IsListing tree directory others) :
    entries.Perm others := by
  refine (List.perm_ext_iff_of_nodup isListing.nodup.of_map isListingToo.nodup.of_map).mpr ?_
  rintro ⟨key, file⟩
  rw [isListing.mem_iff, isListingToo.mem_iff]

/-- Where nothing happens but that some entries are removed, the others are listed as they were. -/
theorem IsListing.of_removes
    {removed kept : List (Key × File)} (isListing : IsListing tree directory (removed ++ kept))
    (loses : LosesFiles tree after)
    (removes : Removes directory (removed.map Prod.fst) tree after) :
    IsListing after directory kept := by
  have nodup := isListing.nodup
  rw [List.map_append, List.nodup_append'] at nodup
  refine ⟨nodup.2.1, fun {key file} => ⟨fun member => ?_, fun present => ?_⟩⟩
  · have was := isListing.mem_iff.mp (List.mem_append_right removed member)
    have stays : key ∉ removed.map Prod.fst := fun gone =>
      nodup.2.2 gone (List.mem_map_of_mem member)
    have entry := removes key
    rw [if_neg stays, entryAt?_eq_some_iff.mpr ⟨file, was, rfl⟩] at entry
    obtain ⟨other, present, _⟩ := entryAt?_eq_some_iff.mp entry
    rw [loses.node?_eq_some present] at was
    cases was
    exact present
  · have member := isListing.mem_iff.mpr (loses.node?_eq_some present)
    refine (List.mem_append.mp member).resolve_left fun gone => ?_
    have entry := removes key
    rw [if_pos (List.mem_map_of_mem gone), entryAt?_eq_some_iff.mpr ⟨file, present, rfl⟩] at entry
    cases entry

end Listings

/-- Whether nothing has changed but files with the names of entries and of temporary files. -/
structure KeepsOthers (tier : DiskTier) (before after : FileTree) : Prop where
  working : after.working = before.working
  node? : ∀ location,
    (∀ key : Key, location ≠ tier.namedLocation before key.name) →
      (∀ name : String, name.endsWith ".tmp" = true →
        location ≠ (tier.config.directory.child name).locationFrom before.working) →
        after.node? location = before.node? location

section Others

variable {tier : DiskTier} {first second third : FileTree}

theorem KeepsOthers.refl (tree : FileTree) : tier.KeepsOthers tree tree :=
  ⟨rfl, fun _ _ _ => rfl⟩

theorem KeepsOthers.trans
    (earlier : tier.KeepsOthers first second) (later : tier.KeepsOthers second third) :
    tier.KeepsOthers first third := by
  refine ⟨later.working.trans earlier.working, fun location noKey noTemporary => ?_⟩
  rw [later.node? location, earlier.node? location noKey noTemporary]
  · intro key
    rw [namedLocation, earlier.working]
    exact noKey key
  · rw [earlier.working]
    exact noTemporary

/-- Removing a file leaves all other locations as they are. -/
theorem node?_removeTolerant
    (tree : FileTree) (path : Path) {location : Location}
    (elsewhere : location ≠ path.locationFrom tree.working) :
    (removeTolerant tree path).1.node? location = tree.node? location := by
  rcases removeTolerant_eq_or_eq_erase tree path with same | erased
  · rw [same]
  · rw [erased, node?_erase_of_ne _ elsewhere]

theorem keepsOthers_cleanup (tier : DiskTier) (tree : FileTree) :
    tier.KeepsOthers tree (tier.cleanup tree).1 := by
  refine related_cleanup KeepsOthers.refl KeepsOthers.trans (fun tree key => ?entry)
    (fun tree => related_scan KeepsOthers.refl KeepsOthers.trans
      (fun tree name ends => ?temporary) tree) tree
  case entry =>
    refine ⟨(losesFiles_removeTolerant tree _).working, fun location noKey _ => ?_⟩
    refine node?_removeTolerant tree _ ?_
    rw [locationFrom_entry rfl]
    exact noKey key
  case temporary =>
    refine ⟨(losesFiles_removeTolerant tree _).working, fun location _ noTemporary => ?_⟩
    exact node?_removeTolerant tree _ (noTemporary name ends)

end Others

/-- All that goes in a sweep after the look are files. -/
theorem losesFiles_sweep (tier : DiskTier) (tree : FileTree) :
    LosesFiles (tier.scan tree).1 (tier.cleanup tree).1 := by
  unfold cleanup
  split
  · next scans =>
      rw [scans]
      exact LosesFiles.refl _
  · next scans =>
      rw [scans]
      exact
        related_removeUntil LosesFiles.refl LosesFiles.trans
          (fun tree key => losesFiles_removeTolerant tree (tier.config.directory.child key.name))
          _ (fun _ member => exists_key_of_mem_scan scans (List.mem_mergeSort.mp member)) _ _ _

section Orderly

variable {tier : DiskTier} {tree : FileTree} {directory : Location}

/-- A directory that is there is in order, if each entry is listed once and has a path that is not
too long. -/
theorem isOrderly_of_nodeAt
    (isDirectory : tree.nodeAt tier.config.directory = .ok .directory)
    (listsOnce : ∀ key : Key, tree.ListsOnce (tier.namedLocation tree key.name))
    (shortPaths : ∀ (key : Key) file,
      tree.node? (tier.namedLocation tree key.name) = some (.file file) →
        (tier.config.directory.child key.name).bytes.length ≤ longestPath) :
    tier.IsOrderly tree (tier.config.directory.locationFrom tree.working) where
  located := rfl
  listsOnce := listsOnce
  reaches key isSome := by
    obtain ⟨bytes, entry⟩ := Option.isSome_iff_exists.mp isSome
    obtain ⟨file, present, _⟩ := entryAt?_eq_some_iff.mp entry
    exact reaches_iff_leads.mpr (leads_of_nodeAt isDirectory (shortPaths key file present))

variable (orderly : tier.IsOrderly tree directory)

include orderly

theorem IsOrderly.of_clock (now : Timestamp) :
    tier.IsOrderly { tree with clock := now } directory where
  located := orderly.located
  listsOnce key := (edits_clock tree now).listsOnce _ (orderly.listsOnce key)
  reaches key isSome := (orderly.reaches key isSome).of_edits (edits_clock tree now)

/-- Entries that are within the bounds are left alone. -/
theorem IsOrderly.cleanup_of_isWithin
    (isDirectory : tree.nodeAt tier.config.directory = .ok .directory)
    {kept : List (Key × File)} (isListing : IsListing tree directory kept)
    (within : IsWithin tier.config kept) :
    tier.cleanup tree = ((tier.scan tree).1, .ok 0) := by
  obtain ⟨fewEntries, fewBytes⟩ :=
    within.of_perm (isListing.perm orderly.isListing_listing)
  have scans : tier.scan tree = ((tier.scan tree).1, (tier.scan tree).2) := rfl
  rw [orderly.scan_snd isDirectory] at scans
  have hold :
      Eviction.Bounds.hold ⟨tier.config.maxEntries, tier.config.maxBytes⟩
        ((tier.listing tree directory).map (scannedEntry tier.config.directory)).length
        (Eviction.totalSize
          ((tier.listing tree directory).map (scannedEntry tier.config.directory))) = true := by
    rw [List.length_map, totalSize_map_scannedEntry, Eviction.Bounds.hold, Bool.and_eq_true,
      decide_eq_true_eq, decide_eq_true_eq]
    exact ⟨fewEntries, fewBytes⟩
  rw [cleanup, scans]
  dsimp only
  rw [evictOldest_of_hold removeEntry hold]

end Orderly

/-- What a sweep does that removes some entries and keeps others. -/
structure IsSweep
    (tier : DiskTier) (directory : Location) (before after : FileTree)
    (removed kept : List (Key × File)) : Prop where
  /-- The removed entries are counted. -/
  result : tier.cleanup before = (after, .ok removed.length)
  /-- The entries are taken by their times, and as they are listed where these are the same. -/
  order : removed ++ kept = byUse (tier.listing before directory)
  /-- These are all entries that were there. -/
  wasListed : IsListing before directory (removed ++ kept)
  /-- Those that are kept have the bytes and the times that they had. -/
  isListed : IsListing after directory kept
  /-- All that has changed is that files are gone, none but entries and temporary files. -/
  files : LosesFiles before after
  others : tier.KeepsOthers before after
  within : IsWithin tier.config kept
  oldestFirst : IsOldestFirst removed kept
  /-- With fewer of the removed ones gone, the others would not be within the bounds. -/
  needed : ∀ fewer < removed.length, ¬IsWithin tier.config ((removed ++ kept).drop fewer)
  /-- A second sweep changes nothing. -/
  again : tier.cleanup after = (after, .ok 0)
  /-- A later one, which may find more temporary files, removes no entry. -/
  later : ∀ now, ∃ swept,
    tier.cleanup { after with clock := now } = (swept, .ok 0) ∧
      IsListing swept directory kept

/-- A sweep of a directory that is in order meets both bounds, oldest first, and removes no more
entries than it must. -/
theorem IsOrderly.exists_isSweep
    {tier : DiskTier} {tree : FileTree} {directory : Location}
    (orderly : tier.IsOrderly tree directory)
    (isDirectory : tree.nodeAt tier.config.directory = .ok .directory) :
    ∃ removed kept after, tier.IsSweep directory tree after removed kept := by
  obtain ⟨removed, kept, after, order, result, removes, within, needed⟩ :=
    orderly.cleanup_spec isDirectory
  have wasListed : IsListing tree directory (removed ++ kept) :=
    orderly.isListing_listing.of_perm (order ▸ byUse_perm _)
  have swept := losesFiles_sweep tier tree
  have edits := edits_cleanup tier tree
  have others := keepsOthers_cleanup tier tree
  rw [result] at swept edits others
  have loses := (losesFiles_scan tier tree).trans swept
  have isListed := wasListed.of_removes loses removes
  have stillOrderly := orderly.of_losesFiles edits loses
  have stillDirectory := edits.nodeAt_directory isDirectory
  refine ⟨removed, kept, after, result, order, wasListed, isListed, loses, others, within,
    ?oldestFirst, ?needed, ?again, fun now => ?later⟩
  case oldestFirst =>
    have sorted := pairwise_byUse (tier.listing tree directory)
    rw [← order, List.pairwise_append] at sorted
    exact sorted.2.2
  case needed =>
    rw [order]
    exact needed
  case again =>
    rw [stillOrderly.cleanup_of_isWithin stillDirectory isListed within,
      scan_fst_of_losesFiles swept]
  case later =>
    have listedThen : IsListing { after with clock := now } directory ([] ++ kept) :=
      ⟨isListed.nodup, isListed.mem_iff⟩
    have directoryThen := (edits_clock after now).nodeAt_directory stillDirectory
    refine ⟨_, (stillOrderly.of_clock now).cleanup_of_isWithin directoryThen listedThen within,
      listedThen.of_removes (losesFiles_scan tier _) fun key => ?_⟩
    rw [(keepsEntries_scan tier _ _).entryAt?]
    rfl

/-- A sweep meets both bounds with the fewest removals, oldest first, in every directory that is
there and in which the path of no entry is too long.  It counts what it removes, keeps all else as
it is and leaves nothing to do for a second sweep.  It goes by the order in which entries are listed
where their times are the same, so that fewer removals could do only if these had different
sizes. -/
theorem exists_isSweep_and_isFewest
    {tier : DiskTier} {tree : FileTree}
    (isDirectory : tree.nodeAt tier.config.directory = .ok .directory)
    (listsOnce : ∀ key : Key, tree.ListsOnce (tier.namedLocation tree key.name))
    (shortPaths : ∀ (key : Key) file,
      tree.node? (tier.namedLocation tree key.name) = some (.file file) →
        (tier.config.directory.child key.name).bytes.length ≤ longestPath) :
    ∃ removed kept after,
      tier.IsSweep (tier.config.directory.locationFrom tree.working) tree after removed kept ∧
        (HaveSizesByTime (removed ++ kept) → IsFewest tier.config removed kept) := by
  obtain ⟨removed, kept, after, sweep⟩ :=
    (isOrderly_of_nodeAt isDirectory listsOnce shortPaths).exists_isSweep isDirectory
  refine ⟨removed, kept, after, sweep, isFewest_of_needed ?_ sweep.needed⟩
  rw [sweep.order]
  exact pairwise_byUse _

/-- The sample directory with some files in it, at a time long after the beginning of 1970. -/
def sampleFiles (files : List (Bytes × File)) : FileTree :=
  { Session.sampleTree with
    nodes :=
      ([Text.encode "c".toList], .directory) ::
        files.map fun file => ([Text.encode "c".toList, file.1], .file file.2)
    clock := .ofSeconds 1000000 0 }

/-- Three entries, of which two may stay, and a temporary file that was left behind. -/
def sampleUsed : FileTree :=
  sampleFiles
    [((Session.sampleKey 0).fileName, ⟨[1, 2, 3], 0, ⟨10⟩⟩),
      ((Session.sampleKey 1).fileName, ⟨[1], 0, ⟨30⟩⟩),
      (Text.encode ".left.tmp".toList, ⟨[], 0, ⟨0⟩⟩),
      ((Session.sampleKey 2).fileName, ⟨[1, 2], 0, ⟨20⟩⟩)]

/-- The path of every entry of the sample tier is short. -/
theorem length_child_sampleTier_le (key : Key) :
    (Session.sampleTier.config.directory.child key.name).bytes.length ≤ longestPath := by
  have short :
      (Session.sampleTier.config.directory.child (Session.sampleKey 0).name).bytes.length ≤
        longestPath := by
    decide +kernel
  exact (length_child_name_le _ key (Session.sampleKey 0)).trans short

/-- The sample directory is swept with the fewest removals. -/
theorem exists_isSweep_and_isFewest_sample :
    ∃ removed kept after,
      Session.sampleTier.IsSweep [Text.encode "c".toList] sampleUsed after removed kept ∧
        IsFewest Session.sampleTier.config removed kept := by
  obtain ⟨removed, kept, after, sweep, fewest⟩ :=
    @exists_isSweep_and_isFewest Session.sampleTier sampleUsed (by decide +kernel)
      (fun _ => listsOnce_of_nodup (by decide +kernel) _)
      (fun key _ _ => length_child_sampleTier_le key)
  have located :
      Session.sampleTier.config.directory.locationFrom sampleUsed.working =
        [Text.encode "c".toList] := by
    decide +kernel
  rw [located] at sweep
  refine ⟨removed, kept, after, sweep, fewest fun first isFirst second isSecond => ?_⟩
  rw [sweep.order, (byUse_perm _).mem_iff] at isFirst isSecond
  have sizes :
      HaveSizesByTime (Session.sampleTier.listing sampleUsed [Text.encode "c".toList]) := by
    decide +kernel
  exact sizes first isFirst second isSecond

/-- What might be expected of a sweep, whatever is in the directory. -/
def SweepsFewest (tier : DiskTier) (directory : Location) (tree : FileTree) : Prop :=
  ∃ removed kept after,
    tier.cleanup tree = (after, .ok removed.length) ∧
      IsListing tree directory (removed ++ kept) ∧
      IsListing after directory kept ∧
      IsWithin tier.config kept ∧
      IsOldestFirst removed kept ∧
      IsFewest tier.config removed kept

/-- Two entries of the same time, of which the smaller one is listed first. -/
def sampleTied : List (Key × File) :=
  [(Session.sampleKey 0, ⟨[1], 0, ⟨0⟩⟩), (Session.sampleKey 1, ⟨[1, 2], 0, ⟨0⟩⟩)]

/-- A directory with these two entries. -/
def sampleTies : FileTree :=
  sampleFiles (sampleTied.map fun entry => (entry.1.fileName, entry.2))

/-- A tier for at most so many entries, of one byte all together. -/
def smallTier (directory : Path) (maxEntries : Nat) : DiskTier :=
  ⟨⟨directory, maxEntries, 1, 1⟩, 0⟩

/-- Without the larger one of two entries of the same time the other one would be within the bounds,
but both are removed. -/
theorem not_sweepsFewest_of_ties :
    ¬(smallTier (.ofString "c") 2).SweepsFewest [Text.encode "c".toList] sampleTies := by
  rintro ⟨removed, kept, after, result, wasListed, _, _, _, fewest⟩
  have isDirectory :
      sampleTies.nodeAt (smallTier (.ofString "c") 2).config.directory = .ok .directory := by
    decide +kernel
  have orderly :
      (smallTier (.ofString "c") 2).IsOrderly sampleTies [Text.encode "c".toList] :=
    isOrderly_of_nodeAt isDirectory (fun _ => listsOnce_of_nodup (by decide +kernel) _)
      fun key _ _ => length_child_sampleTier_le key
  have listing :
      (smallTier (.ofString "c") 2).listing sampleTies [Text.encode "c".toList] =
        sampleTied := by
    decide +kernel
  have sorted : byUse sampleTied = sampleTied :=
    List.mergeSort_of_pairwise (by decide +kernel)
  have perm := orderly.isListing_listing.perm wasListed
  obtain ⟨all, rest, swept, order, sweeps, _, within, _⟩ := orderly.cleanup_spec isDirectory
  rw [listing] at perm order
  rw [sorted] at order
  rw [result] at sweeps
  have few :=
    fewest [(Session.sampleKey 1, ⟨[1, 2], 0, ⟨0⟩⟩)] [(Session.sampleKey 0, ⟨[1], 0, ⟨0⟩⟩)]
      ((List.Perm.swap _ _ _).trans perm) (by simp [IsOldestFirst]) (by decide +kernel)
  rw [Except.ok.inj (Prod.mk.inj sweeps).2] at few
  have isRest : rest = sampleTied.drop all.length := by
    rw [← order, List.drop_left]
  have notOne : ∀ count ≤ 1,
      ¬IsWithin (smallTier (.ofString "c") 2).config (sampleTied.drop count) := by
    decide +kernel
  rw [isRest] at within
  exact notOne all.length few within

/-- A directory with one entry. -/
def sampleSingle : FileTree :=
  sampleFiles [((Session.sampleKey 0).fileName, ⟨[1], 0, ⟨0⟩⟩)]

/-- No entry may stay, but the one that is there is not removed if its path is too long. -/
theorem not_sweepsFewest_of_long_path :
    ¬(smallTier longWay 0).SweepsFewest [Text.encode "c".toList] sampleSingle := by
  rintro ⟨removed, kept, after, result, wasListed, _, within, _, _⟩
  have none : ((smallTier longWay 0).cleanup sampleSingle).2 = .ok 0 := by
    decide +kernel
  rw [result] at none
  have notRemoved := List.length_eq_zero_iff.mp (Except.ok.inj none)
  have notKept := List.length_eq_zero_iff.mp (Nat.le_zero.mp within.1)
  have member : (Session.sampleKey 0, ⟨[1], 0, ⟨0⟩⟩) ∈ removed ++ kept :=
    wasListed.mem_iff.mpr (by decide +kernel)
  rw [notRemoved, notKept] at member
  cases member

/-- The directory with one entry for a process in it. -/
def sampleInside : FileTree :=
  { sampleSingle with working := [Text.encode "c".toList] }

/-- Nor is it removed if the path of the directory is empty, although the tier can be opened
there. -/
theorem not_sweepsFewest_of_empty_path :
    (openAt sampleInside (smallTier ⟨[]⟩ 0).config).2.toBool = true ∧
      ¬(smallTier ⟨[]⟩ 0).SweepsFewest [Text.encode "c".toList] sampleInside := by
  refine ⟨by decide +kernel, ?_⟩
  rintro ⟨removed, kept, after, result, _⟩
  have fails : ((smallTier ⟨[]⟩ 0).cleanup sampleInside).2.toBool = false := by
    decide +kernel
  rw [result] at fails
  cases fails

/-- So not everything that might be expected of a sweep holds whatever is in the directory: not
where entries have the same time, not where their paths are too long, and not where the path of the
directory is empty. -/
theorem not_sweepsFewest_of_ties_or_path :
    ¬(smallTier (.ofString "c") 2).SweepsFewest [Text.encode "c".toList] sampleTies ∧
      ¬(smallTier longWay 0).SweepsFewest [Text.encode "c".toList] sampleSingle ∧
      ¬(smallTier ⟨[]⟩ 0).SweepsFewest [Text.encode "c".toList] sampleInside :=
  ⟨not_sweepsFewest_of_ties, not_sweepsFewest_of_long_path, not_sweepsFewest_of_empty_path.2⟩

end SourcePreview.DiskTier
