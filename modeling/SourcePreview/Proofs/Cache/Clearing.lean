import SourcePreview.Proofs.Cache.Listing

/-!
# Clearing

Clearing that succeeds leaves no file with the name of a key in the directory of the tier, whatever
else there is and however the tier came there.  A look through the directory shows every such file,
and each of them is removed, is gone already, or makes clearing fail.
-/

namespace SourcePreview.DiskTier

open FileTree

/-- What was tried to be removed under the name of a key is no longer there, unless the attempt
failed. -/
theorem entryAt?_of_removeTolerant
    {tier : DiskTier} {tree after : FileTree} {directory : Location}
    (located : tier.config.directory.locationFrom tree.working = directory)
    (isDirectory : tree.nodeAt tier.config.directory = .ok .directory)
    {key : Key} {wasThere : Bool}
    (removes :
      removeTolerant tree (tier.config.directory.child key.name) = (after, .ok wasThere)) :
    after.entryAt? directory key = none := by
  have notRoot := append_fileName_ne_nil directory key
  have location := locationFrom_entry located key
  unfold removeTolerant at removes
  split at removes
  · next removed =>
      cases removes
      obtain ⟨rfl, _⟩ := eq_erase_of_removeFile removed
      apply entryAt?_eq_none
      rw [location, node?_erase _ _ notRoot, if_pos rfl]
  · next notFound =>
      cases removes
      have plain := Key.isPlainName_of_isName key.isName_name
      have short : key.fileName.length ≤ longestName := by
        rw [key.length_fileName]
        decide
      rcases place_child_or_nameTooLong isDirectory plain key.zero_not_mem_fileName short
        with walked | tooLong
      · rw [located] at walked
        change tier.Reaches tree directory key at walked
        cases present : tree.node? (directory ++ [key.fileName]) with
        | none => exact entryAt?_eq_none present
        | some node =>
            rw [Reaches] at walked
            rw [removeFile, nodeAt, walked] at notFound
            simp only [bind, Except.bind, Place.location, present] at notFound
            cases node <;> cases notFound
      · rw [removeFile, nodeAt, tooLong] at notFound
        cases notFound
  · cases removes

/-- The first failure is kept. -/
theorem removeEach_some_ne_ok
    (failure : CacheError) (count : Nat) (entries : List ScannedEntry) (tree : FileTree)
    (total : Nat) :
    (removeEach (some failure) count entries tree).2 ≠ .ok total := by
  induction entries generalizing count tree with
  | nil =>
      intro same
      cases same
  | cons entry entries ih =>
      rw [removeEach]
      split
      · exact ih _ _
      · exact ih _ _
      · exact ih _ _

/-- If removing some files of keys does not fail, none of them is left. -/
theorem entryAt?_of_removeEach
    {tier : DiskTier} {directory : Location} {tree after : FileTree}
    (located : tier.config.directory.locationFrom tree.working = directory)
    (isDirectory : tree.nodeAt tier.config.directory = .ok .directory)
    {entries : List ScannedEntry}
    (named : ∀ entry ∈ entries,
      ∃ key : Key, entry.path = tier.config.directory.child key.name)
    {count total : Nat} (removes : removeEach none count entries tree = (after, .ok total))
    {key : Key}
    (listed : ∃ entry ∈ entries, entry.path = tier.config.directory.child key.name) :
    after.entryAt? directory key = none := by
  induction entries generalizing tree count with
  | nil =>
      obtain ⟨_, member, _⟩ := listed
      cases member
  | cons entry entries ih =>
      have edits := edits_removeTolerant tree entry.path
      have others : ∀ other ∈ entries, ∃ key : Key,
          other.path = tier.config.directory.child key.name :=
        fun other member => named other (List.mem_cons_of_mem _ member)
      have continues {changed : FileTree} {wasThere : Bool} {counted : Nat}
          (first : removeTolerant tree entry.path = (changed, .ok wasThere))
          (rest : removeEach none counted entries changed = (after, .ok total)) :
          after.entryAt? directory key = none := by
        rw [first] at edits
        have stillLocated :
            tier.config.directory.locationFrom changed.working = directory := by
          rw [edits.working, located]
        have stillDirectory := edits.nodeAt_directory isDirectory
        obtain ⟨found, member, path⟩ := listed
        rcases List.mem_cons.mp member with rfl | later
        · -- What is gone stays gone while the others are removed.
          rw [path] at first
          have gone := entryAt?_of_removeTolerant located isDirectory first
          have loses :
              LosesEntries directory changed (removeEach none counted entries changed).1 :=
            related_removeEach LosesEntries.refl LosesEntries.trans
              (fun tree _ => losesEntries_removeTolerant tree _ directory) _ _ others _
          rw [rest] at loses
          rcases loses.entryAt? key with same | none
          · rw [same, gone]
          · exact none
        · exact ih stillLocated stillDirectory others rest ⟨found, later, path⟩
      rw [removeEach] at removes
      split at removes
      · next first => exact continues first removes
      · next first => exact continues first removes
      · next failure _ =>
          exact absurd (congrArg Prod.snd removes) (removeEach_some_ne_ok _ _ _ _ _)

/-- A look through the directory shows the file of every key that has one. -/
theorem exists_mem_scan_of_entryAt?
    {tier : DiskTier} {tree scanned : FileTree} {entries : List ScannedEntry}
    (scans : tier.scan tree = (scanned, .ok entries))
    {key : Key}
    (isSome :
      (tree.entryAt? (tier.config.directory.locationFrom tree.working) key).isSome) :
    ∃ entry ∈ entries, entry.path = tier.config.directory.child key.name := by
  obtain ⟨bytes, entry⟩ := Option.isSome_iff_exists.mp isSome
  obtain ⟨file, present, _⟩ := entryAt?_eq_some_iff.mp entry
  have isDirectory := nodeAt_of_scan_eq_ok scans
  obtain ⟨place, walked⟩ := exists_place_of_nodeAt isDirectory
  rw [scan, list_of_nodeAt isDirectory] at scans
  cases scans
  have shown :
      scannedFile? tier.config.directory tree key.name =
        some ⟨tier.config.directory.child key.name, file.size, file.modified⟩ := by
    have listed := listedNode?_of_place walked key.fileName
    rw [present] at listed
    rw [scannedFile?, ← Key.fileName, listed]
    exact if_pos key.isName_name
  refine ⟨_, List.mem_filterMap.mpr ⟨key.name, ?_, shown⟩, rfl⟩
  refine List.mem_filterMap.mpr ⟨key.fileName, mem_childNames_of_node? present, ?_⟩
  rw [Key.decode?_eq_name_iff.mpr rfl, Option.map_some, String.ofList_toList]

/-- Clearing that succeeds leaves no file of a key. -/
theorem entryAt?_of_clear
    {tier : DiskTier} {tree after : FileTree} {count : Nat}
    (clears : tier.clear tree = (after, .ok count)) (key : Key) :
    after.entryAt? (tier.config.directory.locationFrom tree.working) key = none := by
  have loses :=
    losesEntries_clear tier tree (tier.config.directory.locationFrom tree.working)
  rw [clears] at loses
  by_cases isSome :
      (tree.entryAt? (tier.config.directory.locationFrom tree.working) key).isSome
  · unfold clear at clears
    split at clears
    · cases clears
    · next scanned entries scans =>
        have edits := edits_scan tier tree
        rw [scans] at edits
        have located :
            tier.config.directory.locationFrom scanned.working =
              tier.config.directory.locationFrom tree.working := by
          rw [edits.working]
        exact
          entryAt?_of_removeEach located
            (edits.nodeAt_directory (nodeAt_of_scan_eq_ok scans))
            (fun entry member => exists_key_of_mem_scan scans member) clears
            (exists_mem_scan_of_entryAt? scans isSome)
  · have absent := Option.not_isSome_iff_eq_none.mp isSome
    rcases loses.entryAt? key with same | gone
    · rw [same, absent]
    · exact gone

end SourcePreview.DiskTier
