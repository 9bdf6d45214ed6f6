import SourcePreview.Proofs.Cache.Listing

/-!
# What a sweep leaves

A sweep goes through the entries in the order of their last use and removes one after the other
until those that are left are within the bounds.  Where only the tier uses its directory, no
removal fails.  So a sweep removes the entries that were used longest ago, keeps the files of all
others, and what it keeps is within both bounds.  It stops as soon as the bounds hold.
-/

namespace SourcePreview.DiskTier

open FileTree

/-- The number of bytes of some entry files. -/
def totalBytes (entries : List (Key × File)) : Nat :=
  (entries.map fun entry => entry.2.size).sum

/-- Some entry files in the order of their last use. -/
def byUse (entries : List (Key × File)) : List (Key × File) :=
  entries.mergeSort fun left right => decide (left.2.modified ≤ right.2.modified)

theorem oldestFirst_map_scannedEntry (directory : Path) (entries : List (Key × File)) :
    Eviction.oldestFirst (entries.map (scannedEntry directory)) =
      (byUse entries).map (scannedEntry directory) := by
  rw [Eviction.oldestFirst, byUse, List.map_mergeSort]
  intro left _ right _
  rfl

theorem byUse_perm (entries : List (Key × File)) : (byUse entries).Perm entries :=
  List.mergeSort_perm entries _

/-- Entries are removed in the given order until the bounds hold or none is left, and not after
that. -/
theorem IsOrderly.exists_removeUntil_eq
    {tier : DiskTier} {tree : FileTree} {directory : Location}
    (orderly : tier.IsOrderly tree directory)
    {entries : List (Key × File)} (nodup : (entries.map Prod.fst).Nodup)
    (present : ∀ key ∈ entries.map Prod.fst, (tree.entryAt? directory key).isSome)
    (bounds : Eviction.Bounds) (count size : Nat) :
    ∃ removed kept after,
      removed ++ kept = entries ∧
        Eviction.removeUntil removeEntry bounds count size
            (entries.map (scannedEntry tier.config.directory)) tree =
          (removed.length, after) ∧
        Removes directory (removed.map Prod.fst) tree after ∧
        (kept = [] ∨
          bounds.hold (count - removed.length) (size - totalBytes removed) = true) ∧
        ∀ fewer < removed.length,
          bounds.hold (count - fewer) (size - totalBytes (entries.take fewer)) = false := by
  induction entries generalizing tree count size with
  | nil =>
      exact
        ⟨[], [], tree, rfl, rfl, Removes.nil directory tree, Or.inl rfl,
          fun fewer few => absurd few fewer.not_lt_zero⟩
  | cons entry entries ih =>
      rw [List.map_cons, Eviction.removeUntil]
      by_cases hold : bounds.hold count size = true
      · rw [if_pos hold]
        exact
          ⟨[], entry :: entries, tree, rfl, rfl, Removes.nil directory tree, Or.inr hold,
            fun fewer few => absurd few fewer.not_lt_zero⟩
      · rw [if_neg hold]
        obtain ⟨without, removes, stillOrderly, others, left⟩ :=
          orderly.removeTolerant_first nodup present
        obtain ⟨removed, kept, after, split, goesOn, leftOver, ends, needed⟩ :=
          ih stillOrderly nodup.of_cons others (count - 1) (size - entry.2.size)
        refine
          ⟨entry :: removed, kept, after, ?_, ?_, Removes.cons left leftOver, ?_, ?_⟩
        · rw [List.cons_append, split]
        · rw [removeEntry, removes]
          dsimp only
          rw [scannedEntry, goesOn, List.length_cons]
        · rw [List.length_cons, totalBytes, List.map_cons, List.sum_cons, Nat.add_comm,
            ← Nat.sub_sub, ← Nat.sub_sub]
          exact ends
        · intro fewer few
          cases fewer with
          | zero => exact Bool.eq_false_iff.mpr hold
          | succ fewer =>
              rw [List.take_succ_cons, totalBytes, List.map_cons, List.sum_cons,
                Nat.add_comm fewer, ← Nat.sub_sub, ← Nat.sub_sub]
              exact needed fewer (Nat.lt_of_succ_lt_succ few)

/-- Whether some entry files are within both bounds of a tier. -/
def IsWithin (config : DiskConfig) (entries : List (Key × File)) : Prop :=
  entries.length ≤ config.maxEntries ∧ totalBytes entries ≤ config.maxBytes

instance (config : DiskConfig) (entries : List (Key × File)) :
    Decidable (IsWithin config entries) :=
  inferInstanceAs (Decidable (_ ∧ _))

/-- What is left of some entry files once the first of them are removed. -/
theorem hold_iff_isWithin
    (config : DiskConfig) {first rest entries : List (Key × File)}
    (split : first ++ rest = entries) :
    Eviction.Bounds.hold ⟨config.maxEntries, config.maxBytes⟩ (entries.length - first.length)
        (totalBytes entries - totalBytes first) = true ↔
      IsWithin config rest := by
  have bytes : totalBytes entries = totalBytes first + totalBytes rest := by
    rw [← split, totalBytes, List.map_append, List.sum_append]
    rfl
  rw [bytes, ← split, List.length_append, Nat.add_sub_cancel_left, Nat.add_sub_cancel_left,
    Eviction.Bounds.hold, Bool.and_eq_true, decide_eq_true_eq, decide_eq_true_eq]
  rfl

/-- A sweep removes the entries used longest ago and keeps the others, which are within both
bounds.  Had it removed fewer of them, the others would not be. -/
theorem IsOrderly.cleanup_spec
    {tier : DiskTier} {tree : FileTree} {directory : Location}
    (orderly : tier.IsOrderly tree directory)
    (isDirectory : tree.nodeAt tier.config.directory = .ok .directory) :
    ∃ removed kept after,
      removed ++ kept = byUse (tier.listing tree directory) ∧
        tier.cleanup tree = (after, .ok removed.length) ∧
        Removes directory (removed.map Prod.fst) tree after ∧
        IsWithin tier.config kept ∧
        ∀ fewer < removed.length,
          ¬IsWithin tier.config ((byUse (tier.listing tree directory)).drop fewer) := by
  have isListing := orderly.isListing_listing
  have sorted := (byUse_perm (tier.listing tree directory)).map Prod.fst
  have keeps := keepsEntries_scan tier tree directory
  have present :
      ∀ key ∈ (byUse (tier.listing tree directory)).map Prod.fst,
        ((tier.scan tree).1.entryAt? directory key).isSome := by
    intro key member
    rw [keeps.entryAt?]
    exact isListing.mem_keys_iff.mp (sorted.mem_iff.mp member)
  obtain ⟨removed, kept, after, split, sweeps, removes, ends, needed⟩ :=
    orderly.scan.exists_removeUntil_eq (sorted.nodup_iff.mpr isListing.nodup) present
      ⟨tier.config.maxEntries, tier.config.maxBytes⟩
      (byUse (tier.listing tree directory)).length
      (totalBytes (byUse (tier.listing tree directory)))
  refine ⟨removed, kept, after, split, ?_, fun key => ?_, ?_, fun fewer few => ?_⟩
  · have scans : tier.scan tree = ((tier.scan tree).1, (tier.scan tree).2) := rfl
    rw [orderly.scan_snd isDirectory] at scans
    rw [cleanup, scans]
    dsimp only
    have bytes :
        totalBytes (byUse (tier.listing tree directory)) =
          totalBytes (tier.listing tree directory) :=
      ((byUse_perm _).map _).sum_nat
    rw [Eviction.evictOldest, oldestFirst_map_scannedEntry, List.length_map,
      totalSize_map_scannedEntry, ← totalBytes, ← (byUse_perm _).length_eq, ← bytes, sweeps]
  · rw [removes key, keeps.entryAt?]
  · rcases ends with none | hold
    · rw [none]
      exact ⟨Nat.zero_le _, Nat.zero_le _⟩
    · exact (hold_iff_isWithin tier.config split).mp hold
  · have short : fewer ≤ (byUse (tier.listing tree directory)).length := by
      rw [← split, List.length_append]
      exact few.le.trans (Nat.le_add_right _ _)
    have tooMany := needed fewer few
    rw [← Bool.not_eq_true] at tooMany
    rw [← hold_iff_isWithin tier.config (List.take_append_drop fewer _),
      List.length_take_of_le short]
    exact tooMany

end SourcePreview.DiskTier
