import SourcePreview.Proofs.FileTree.Edits
import SourcePreview.Proofs.Text.Utf8
import SourcePreview.Proofs.Yaml.Fields
import SourcePreview.Settings

/-!
# Settings survive a save

Settings are printed as a record whose fields are read back from their values, whatever the texts
among them are.  So what was saved to a file is loaded from it again.
-/

namespace SourcePreview

open Yaml

/-- Whether the numbers in the settings of the disk tier are within their bound. -/
structure DiskSettings.IsBounded (settings : DiskSettings) : Prop where
  maxEntries : settings.maxEntries < Settings.numberBound
  maxBytes : settings.maxBytes < Settings.numberBound
  cleanupEvery : settings.cleanupEvery < Settings.numberBound

namespace Settings

/-- Whether the numbers in settings are within their bound. -/
structure IsBounded (settings : Settings) : Prop where
  deadlineMs : settings.deadlineMs < numberBound
  maxLines : settings.maxLines < numberBound
  memoryEntries : settings.memoryEntries < numberBound
  disk : settings.disk.IsBounded

/-- The fields of the settings of the disk tier in order. -/
def diskMembers (settings : DiskSettings) : List (String × Value) :=
  [("enabled", boolWord settings.enabled), ("max_entries", numberWord settings.maxEntries),
    ("max_bytes", numberWord settings.maxBytes),
    ("cleanup_every", numberWord settings.cleanupEvery)]

theorem nodup_diskMembers (settings : DiskSettings) :
    ((diskMembers settings).map Prod.fst).Nodup := by
  simp [diskMembers]

theorem disk_mem_members (settings : Settings) :
    ("disk", Value.record (diskMembers settings.disk)) ∈ settings.members := by
  simp [members, diskMembers]

theorem nodup_members (settings : Settings) : (settings.members.map Prod.fst).Nodup := by
  cases given : settings.cacheDirectory <;> simp [members, given]

/-! ## Reading settings back -/

section

variable (document : Document)

/-- The settings of the disk tier are read back from their fields. -/
theorem ofNode?_diskMembers {settings : DiskSettings} (bounded : settings.IsBounded) :
    DiskSettings.ofNode? document (.mapping (Value.memberNodes (diskMembers settings))) =
      some settings := by
  have distinct := nodup_diskMembers settings
  have enabled :=
    document.orDefault?_of_mem DiskSettings.standard.enabled Document.bool? distinct
      (show ("enabled", boolWord settings.enabled) ∈ _ by simp [diskMembers])
  have maxEntries :=
    document.orDefault?_of_mem DiskSettings.standard.maxEntries (Document.nat? numberBound)
      distinct (show ("max_entries", numberWord settings.maxEntries) ∈ _ by simp [diskMembers])
  have maxBytes :=
    document.orDefault?_of_mem DiskSettings.standard.maxBytes (Document.nat? numberBound)
      distinct (show ("max_bytes", numberWord settings.maxBytes) ∈ _ by simp [diskMembers])
  have cleanupEvery :=
    document.orDefault?_of_mem DiskSettings.standard.cleanupEvery (Document.nat? numberBound)
      distinct (show ("cleanup_every", numberWord settings.cleanupEvery) ∈ _ by simp [diskMembers])
  simp only [DiskSettings.ofNode?, Document.members?_memberNodes, Option.bind_eq_bind,
    Option.bind_some]
  rw [enabled, maxEntries, maxBytes, cleanupEvery, boolWord, Document.bool?_word, numberWord,
    numberWord, numberWord, Document.nat?_word _ bounded.maxEntries,
    Document.nat?_word _ bounded.maxBytes, Document.nat?_word _ bounded.cleanupEvery]
  rfl

/-- The directory is read back, and is missing if it was not given. -/
theorem cacheDirectory_of_members (settings : Settings) :
    Document.orDefault? none document
        (settings.members.map fun (name, value) => (name, value.node)) "cache_dir"
        (Document.optional? Document.text?) =
      some settings.cacheDirectory := by
  cases given : settings.cacheDirectory with
  | none =>
      apply document.orDefault?_of_not_mem
      simp [members, given]
  | some directory =>
      rw [document.orDefault?_of_mem none _ (nodup_members settings)
        (show ("cache_dir", .text directory) ∈ settings.members by simp [members, given])]
      exact document.optional?_text directory

/-- Settings are read back from their fields. -/
theorem ofNode?_members {settings : Settings} (bounded : settings.IsBounded) :
    ofNode? document (.mapping (Value.memberNodes settings.members)) = some settings := by
  have distinct := nodup_members settings
  have theme :=
    document.orDefault?_of_mem standard.theme Document.text? distinct
      (show ("theme", .text settings.theme) ∈ settings.members by simp [members])
  have deadlineMs :=
    document.orDefault?_of_mem standard.deadlineMs (Document.nat? numberBound) distinct
      (show ("deadline_ms", numberWord settings.deadlineMs) ∈ settings.members by simp [members])
  have maxLines :=
    document.orDefault?_of_mem standard.maxLines (Document.nat? numberBound) distinct
      (show ("max_lines", numberWord settings.maxLines) ∈ settings.members by simp [members])
  have memoryEntries :=
    document.orDefault?_of_mem standard.memoryEntries (Document.nat? numberBound) distinct
      (show ("memory_entries", numberWord settings.memoryEntries) ∈ settings.members by
        simp [members])
  have disk :=
    document.orDefault?_of_mem DiskSettings.standard DiskSettings.ofNode? distinct
      (disk_mem_members settings)
  simp only [ofNode?, Document.members?_memberNodes, Option.bind_eq_bind, Option.bind_some]
  rw [theme, deadlineMs, maxLines, memoryEntries, cacheDirectory_of_members, disk,
    Document.text?_text, numberWord, numberWord, numberWord,
    Document.nat?_word _ bounded.deadlineMs, Document.nat?_word _ bounded.maxLines,
    Document.nat?_word _ bounded.memoryEntries, Value.node, ofNode?_diskMembers _ bounded.disk]
  rfl

end

/-! ## Printing -/

theorem isWritable_numberWord (number : Nat) : (numberWord number).IsWritable := by
  rw [numberWord, Value.IsWritable]
  exact Value.isWord_toString number

theorem isWritable_boolWord (value : Bool) : (boolWord value).IsWritable := by
  rw [boolWord, Value.IsWritable]
  cases value <;> decide +kernel

theorem areWritable_diskMembers (settings : DiskSettings) :
    Value.AreWritable (diskMembers settings) := by
  apply Value.areWritable_of_forall
  intro name value inside
  simp only [diskMembers, List.mem_cons, List.not_mem_nil, or_false, Prod.mk.injEq] at inside
  rcases inside with ⟨rfl, rfl⟩ | ⟨rfl, rfl⟩ | ⟨rfl, rfl⟩ | ⟨rfl, rfl⟩
  · exact ⟨by decide +kernel, by decide +kernel, isWritable_boolWord _⟩
  all_goals exact ⟨by decide +kernel, by decide +kernel, isWritable_numberWord _⟩

/-- Whatever the texts in settings are, the settings can be printed so that they are read back. -/
theorem areWritable_members (settings : Settings) : Value.AreWritable settings.members := by
  have isWritable : (Value.record (diskMembers settings.disk)).IsWritable := by
    rw [Value.IsWritable]
    exact ⟨List.cons_ne_nil _ _, areWritable_diskMembers settings.disk⟩
  apply Value.areWritable_of_forall
  intro name value inside
  simp only [members, List.mem_append, List.mem_cons, List.not_mem_nil, or_false,
    Option.mem_toList, Option.map_eq_some_iff, Prod.mk.injEq] at inside
  rcases inside with
    ((⟨rfl, rfl⟩ | ⟨rfl, rfl⟩ | ⟨rfl, rfl⟩ | ⟨rfl, rfl⟩) | ⟨directory, _, rfl, rfl⟩) | ⟨rfl, rfl⟩
  · exact ⟨by decide +kernel, by decide +kernel, Value.isWritable_text _⟩
  · exact ⟨by decide +kernel, by decide +kernel, isWritable_numberWord _⟩
  · exact ⟨by decide +kernel, by decide +kernel, isWritable_numberWord _⟩
  · exact ⟨by decide +kernel, by decide +kernel, isWritable_numberWord _⟩
  · exact ⟨by decide +kernel, by decide +kernel, Value.isWritable_text _⟩
  · exact ⟨by decide +kernel, by decide +kernel, isWritable⟩

/-- The text that is printed for settings spells them. -/
theorem parse?_print {settings : Settings} (bounded : settings.IsBounded) :
    parse? settings.print = some settings := by
  have notEmpty : settings.members ≠ [] := by simp [members]
  rw [parse?, print, Document.parse?_printRecord notEmpty (areWritable_members settings)]
  exact ofNode?_members _ bounded

end Settings

/-! ## Saving and loading -/

/-- Makes the directories on the way to a path. -/
def FileTree.makeWay (tree : FileTree) (path : Path) : FileTree × Except SystemError Unit :=
  match path.parent? with
  | some parent => tree.createDirectories parent
  | none => (tree, .ok ())

/-- Whether a file can be written at a path once the directories on the way to it are made. -/
def FileTree.TakesFile (tree : FileTree) (path : Path) : Prop :=
  ∃ made bytes written,
    tree.makeWay path = (made, .ok ()) ∧ made.writeFile path bytes = .ok written

/-- A text that was written to a file is read from it again. -/
theorem FileTree.readText_of_writeFile
    {tree written : FileTree} {path : Path} {text : String}
    (writes : tree.writeFile path (Text.encode text.toList) = .ok written) :
    written.readText path = .ok text := by
  rw [readText, fileAt_of_writeFile writes]
  simp only [bind, Except.bind, File.bytes, List.replicate_zero, List.append_nil,
    Text.decode?_encode, String.ofList_toList]
  rfl

namespace Settings

variable {settings : Settings} {tree : FileTree} {path : Path}

/-- What is loaded from a file just written are the settings that were written to it. -/
theorem loadFrom_of_writeFile
    {written : FileTree} (bounded : settings.IsBounded)
    (writes : tree.writeFile path (Text.encode settings.print.toList) = .ok written) :
    loadFrom written path = settings := by
  rw [loadFrom, FileTree.readText_of_writeFile writes]
  exact congrArg (·.getD standard) (parse?_print bounded)

theorem saveTo_of_makeWay_eq_error
    {made : FileTree} {reason : SystemError} (settings : Settings)
    (makes : tree.makeWay path = (made, .error reason)) :
    settings.saveTo tree path = (made, .error (.directory reason)) := by
  unfold saveTo
  unfold FileTree.makeWay at makes
  cases parent : path.parent? with
  | none =>
      rw [parent] at makes
      cases makes
  | some directory =>
      rw [parent] at makes
      dsimp only at makes ⊢
      generalize tree.createDirectories directory = created at makes ⊢
      cases makes
      rfl

theorem saveTo_of_makeWay
    {made : FileTree} (settings : Settings) (makes : tree.makeWay path = (made, .ok ())) :
    settings.saveTo tree path =
      match made.writeFile path (Text.encode settings.print.toList) with
      | .ok written => (written, .ok ())
      | .error reason => (made, .error (.file path reason)) := by
  unfold saveTo
  unfold FileTree.makeWay at makes
  cases parent : path.parent? with
  | none =>
      rw [parent] at makes
      cases makes
      rfl
  | some directory =>
      rw [parent] at makes
      dsimp only at makes ⊢
      generalize tree.createDirectories directory = created at makes ⊢
      cases makes
      rfl

/-- Saving fails only where the file tree takes no file, whatever the settings are. -/
theorem saveTo_cases (settings : Settings) (tree : FileTree) (path : Path) :
    (∃ made written : FileTree,
      made.writeFile path (Text.encode settings.print.toList) = .ok written ∧
        settings.saveTo tree path = (written, .ok ())) ∨
      ¬tree.TakesFile path ∧ ∃ left reason, settings.saveTo tree path = (left, .error reason) := by
  rcases makes : tree.makeWay path with ⟨made, reason | done⟩
  · refine Or.inr ⟨?_, made, .directory reason, saveTo_of_makeWay_eq_error settings makes⟩
    rintro ⟨other, bytes, written, othersMake, _⟩
    rw [makes] at othersMake
    cases othersMake
  · have saves := saveTo_of_makeWay settings makes
    cases writes : made.writeFile path (Text.encode settings.print.toList) with
    | ok written =>
        rw [writes] at saves
        exact Or.inl ⟨made, written, writes, saves⟩
    | error reason =>
        rw [writes] at saves
        refine Or.inr ⟨?_, made, .file path reason, saves⟩
        rintro ⟨other, bytes, written, othersMake, othersWrite⟩
        rw [makes] at othersMake
        cases othersMake
        obtain ⟨_, same⟩ :=
          FileTree.exists_writeFile_eq_ok othersWrite (Text.encode settings.print.toList)
        rw [writes] at same
        cases same

/-- Settings that are saved to a file are loaded from it again, whatever the texts among them are.
Saving fails only where no file can be written. -/
theorem loadFrom_saveTo (bounded : settings.IsBounded) (tree : FileTree) (path : Path) :
    (∃ saved,
      settings.saveTo tree path = (saved, .ok ()) ∧ loadFrom saved path = settings) ∨
      ¬tree.TakesFile path ∧ ∃ left reason, settings.saveTo tree path = (left, .error reason) := by
  rcases settings.saveTo_cases tree path with ⟨made, written, writes, saves⟩ | refused
  · exact Or.inl ⟨written, saves, loadFrom_of_writeFile bounded writes⟩
  · exact Or.inr refused

/-- Settings whose texts would be read as something else if they were not quoted. -/
def misleading : Settings :=
  { standard with theme := "null", cacheDirectory := some " # |\n\u0007" }

theorem loadFrom_saveTo_sample :
    misleading.IsBounded ∧
      ∃ saved,
        misleading.saveTo (FileTree.empty ⟨0⟩) (Path.ofString "/settings/previews.yaml") =
            (saved, .ok ()) ∧
          loadFrom saved (Path.ofString "/settings/previews.yaml") = misleading := by
  have bounded : misleading.IsBounded :=
    ⟨by decide, by decide, by decide, by decide, by decide, by decide⟩
  have takes : (FileTree.empty ⟨0⟩).TakesFile (Path.ofString "/settings/previews.yaml") := by
    refine ⟨_, [], _, rfl, rfl⟩
  refine ⟨bounded, ?_⟩
  rcases loadFrom_saveTo bounded (FileTree.empty ⟨0⟩) (Path.ofString "/settings/previews.yaml") with
    saved | ⟨refused, _⟩
  · exact saved
  · exact absurd takes refused

end Settings

end SourcePreview
