import SourcePreview.Proofs.Cache.Disk
import SourcePreview.Theme.Library

/-!
# Themes and entries

The file of a theme is never that of an entry, so a theme is loaded as before after an entry was
removed, and all entries are kept when a theme is written or removed.
-/

namespace SourcePreview.Theme

open FileTree

/-- The last byte of the name of the file of a theme. -/
def fileEnd : UInt8 := 0x6C

theorem getLast?_fileName (id : String) :
    (Text.encode (id ++ ".yaml").toList).getLast? = some fileEnd := by
  rw [String.toList_append, Text.encode_append, List.getLast?_append_of_ne_nil]
  all_goals decide

theorem endsNoEntry_fileEnd : DiskTier.EndsNoEntry fileEnd := by
  refine ⟨?_, ?_, ?_⟩ <;> decide

section Edited

variable {tree changed : FileTree} {themes : Path} {id : String}

/-- Writing the file of a theme keeps all entries, wherever they are. -/
theorem keepsEntries_writeFile
    {bytes : Bytes}
    (writes : tree.writeFile (themes.child (id ++ ".yaml")) bytes = .ok changed)
    (directory : Location) :
    KeepsEntries directory tree changed := by
  have noEntry :=
    DiskTier.isNoEntry_child endsNoEntry_fileEnd themes (getLast?_fileName id) tree.working
  obtain ⟨rfl, _⟩ := eq_putBytes_of_writeFile writes
  exact ⟨rfl, (keepsEntries_put tree.tick directory noEntry _).entryAt?⟩

/-- Removing the file of a theme keeps all entries, wherever they are. -/
theorem keepsEntries_removeFile
    (removes : tree.removeFile (themes.child (id ++ ".yaml")) = .ok changed)
    (directory : Location) :
    KeepsEntries directory tree changed := by
  have noEntry :=
    DiskTier.isNoEntry_child endsNoEntry_fileEnd themes (getLast?_fileName id) tree.working
  obtain ⟨rfl, _⟩ := eq_erase_of_removeFile removes
  exact keepsEntries_erase tree directory noEntry

end Edited

section Erased

variable
    {tree : FileTree} {directory : Location} {key : Key} {file : File}
    (present : tree.node? (directory ++ [key.fileName]) = some (.file file))

include present

/-- What is at the path of a theme after an entry was removed was there before, and stays. -/
theorem nodeAt_erase_entry_iff (themes : Path) (id : String) (node : Node) :
    (tree.erase (directory ++ [key.fileName])).nodeAt
        (themes.child (id ++ ".yaml")) = .ok node ↔
      tree.nodeAt (themes.child (id ++ ".yaml")) = .ok node := by
  have noEntry :=
    DiskTier.isNoEntry_child endsNoEntry_fileEnd themes (getLast?_fileName id)
      tree.working
  obtain ⟨parent, name, location, _⟩ :=
    Path.exists_locationFrom_eq_append_singleton
      (DiskTier.getLast?_child themes (getLast?_fileName id))
      endsNoEntry_fileEnd.2.1 endsNoEntry_fileEnd.2.2 tree.working
  have same :
      (tree.erase (directory ++ [key.fileName])).node?
          ((themes.child (id ++ ".yaml")).locationFrom tree.working) =
        tree.node? ((themes.child (id ++ ".yaml")).locationFrom tree.working) := by
    rw [node?_erase _ _ (by simp [location]),
      if_neg (noEntry directory key).symm]
  constructor
  · exact
      nodeAt_of_directories
        (fun other => (node?_erase_eq_directory_iff present other).mp) rfl same.symm
  · exact
      nodeAt_of_directories
        (fun other => (node?_erase_eq_directory_iff present other).mpr) rfl same

/-- A theme is loaded as before after an entry was removed. -/
theorem load_erase_entry (environment : Environment) (id : String) :
    load environment (tree.erase (directory ++ [key.fileName])) id =
      load environment tree id := by
  unfold load userFile?
  cases environment.themesDirectory? with
  | none => rfl
  | some themes =>
      have same := nodeAt_erase_entry_iff present themes id
      simp only [Option.map_some, Option.filter_some]
      cases found : tree.nodeAt (themes.child (id ++ ".yaml")) with
      | ok node =>
          have foundErased := (same node).mpr found
          simp [isPresent, ofFile, readText, fileAt, found, foundErased,
            Except.toBool]
      | error failure =>
          cases foundErased :
              (tree.erase (directory ++ [key.fileName])).nodeAt
                (themes.child (id ++ ".yaml")) with
          | ok node =>
              rw [(same node).mp foundErased] at found
              cases found
          | error other =>
              simp [isPresent, found, foundErased, Except.toBool]

end Erased

end SourcePreview.Theme
