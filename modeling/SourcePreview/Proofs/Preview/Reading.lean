import SourcePreview.Preview.Source
import SourcePreview.Proofs.FileTree.Changes

/-!
# What is read for previews

A file can be shown if it is not too large and has no byte zero near its beginning; everything else
at the end of a path is refused.  What is read there therefore stays the same as long as directories
stay and nothing changes but files that cannot be shown.
-/

namespace SourcePreview

namespace File

theorem beginning_eq_take (file : File) (count : Nat) :
    file.beginning count = file.bytes.take count := by
  rw [beginning, bytes, List.take_append, List.take_replicate, Nat.min_comm]

theorem size_eq_length (file : File) : file.size = file.bytes.length := by
  rw [size, bytes, List.length_append, List.length_replicate]

/-- Whether a file can be shown: it has at most fifty mebibytes, and no byte zero is among the first
8192. -/
structure IsText (file : File) : Prop where
  size : file.bytes.length ≤ 50 * 1024 * 1024
  noZero : 0 ∉ file.bytes.take 8192

instance (file : File) : Decidable file.IsText :=
  decidable_of_iff (file.bytes.length ≤ 50 * 1024 * 1024 ∧ 0 ∉ file.bytes.take 8192)
    ⟨fun both => ⟨both.1, both.2⟩, fun isText => ⟨isText.size, isText.noZero⟩⟩

theorem isText_congr {first second : File} (same : first.bytes = second.bytes) :
    first.IsText ↔ second.IsText := by
  constructor
  · rintro ⟨size, noZero⟩
    exact ⟨same ▸ size, same ▸ noZero⟩
  · rintro ⟨size, noZero⟩
    exact ⟨same ▸ size, same ▸ noZero⟩

/-- The text of a file, with each malformed stretch replaced by a replacement character. -/
def text (file : File) : String :=
  String.ofList (Text.decodeLossy file.bytes)

end File

namespace FileTree

/-- Whether there is a file that can be shown at the end of a path. -/
def HasText (tree : FileTree) (path : Path) (file : File) : Prop :=
  tree.fileAt path = .ok file ∧ file.IsText

/-- The file that can be shown at the end of a path, if there is one. -/
def textAt? (tree : FileTree) (path : Path) : Option File :=
  match tree.fileAt path with
  | .ok file => if file.IsText then some file else none
  | .error _ => none

theorem textAt?_eq_some_iff {tree : FileTree} {path : Path} {file : File} :
    tree.textAt? path = some file ↔ tree.HasText path file := by
  unfold textAt? HasText
  cases tree.fileAt path with
  | error failure => exact ⟨nofun, nofun⟩
  | ok found =>
      dsimp only
      by_cases isText : found.IsText
      · rw [if_pos isText]
        constructor
        · intro same
          cases same
          exact ⟨rfl, isText⟩
        · rintro ⟨same, _⟩
          cases same
          rfl
      · rw [if_neg isText]
        constructor
        · nofun
        · rintro ⟨same, isTextHere⟩
          cases same
          exact absurd isTextHere isText

end FileTree

open FileTree

namespace Source

theorem isBinary_iff
    {tree : FileTree} {path : Path} {file : File} (isFile : tree.fileAt path = .ok file) :
    isBinary tree path = true ↔ 0 ∈ file.bytes.take 8192 := by
  rw [isBinary, isFile]
  dsimp only
  rw [File.beginning_eq_take, List.contains_iff_mem]
  rfl

/-- What is read is the text of a file that can be shown. -/
theorem exists_of_read
    {tree : FileTree} {path : Path} {source : Source} (reads : read tree path = .ok source) :
    ∃ file, tree.HasText path file ∧ source = ⟨file.text, file.modified⟩ := by
  unfold read at reads
  obtain ⟨_, checks, reads⟩ := bind_eq_ok_iff.mp reads
  dsimp only at reads
  split at reads
  · cases reads
  · next notBinary =>
      cases isFile : tree.fileAt path with
      | error failure =>
          rw [isFile] at reads
          cases reads
      | ok file =>
          rw [isFile] at reads
          cases reads
          refine ⟨file, ⟨isFile, ?_, ?_⟩, rfl⟩
          · rw [check, fileAt_eq_ok_iff.mp isFile] at checks
            dsimp only at checks
            split at checks
            · cases checks
            · next small =>
                rw [File.size_eq_length] at small
                exact Nat.le_of_not_lt small
          · rw [isBinary_iff isFile] at notBinary
            exact notBinary

/-- The text of every file that can be shown is read. -/
theorem read_of_hasText
    {tree : FileTree} {path : Path} {file : File} (has : tree.HasText path file) :
    read tree path = .ok ⟨file.text, file.modified⟩ := by
  obtain ⟨isFile, size, noZero⟩ := has
  have small : ¬maxSize < file.size := by
    rw [File.size_eq_length]
    exact Nat.not_lt.mpr size
  have checks : check tree path = .ok () := by
    rw [check, fileAt_eq_ok_iff.mp isFile]
    exact if_neg small
  have notBinary : ¬isBinary tree path = true := (isBinary_iff isFile).not.mpr noZero
  rw [read, checks]
  simp only [bind, Except.bind]
  rw [if_neg notBinary, isFile]
  rfl

/-- Reading succeeds for the files that can be shown and gives their text. -/
theorem toOption_read (tree : FileTree) (path : Path) :
    (read tree path).toOption =
      (tree.textAt? path).map fun file => ⟨file.text, file.modified⟩ := by
  cases reads : read tree path with
  | ok source =>
      obtain ⟨file, has, rfl⟩ := exists_of_read reads
      rw [textAt?_eq_some_iff.mpr has]
      rfl
  | error failure =>
      cases found : tree.textAt? path with
      | none => rfl
      | some file =>
          rw [read_of_hasText (textAt?_eq_some_iff.mp found)] at reads
          cases reads

end Source

namespace FileTree

/-- Whether there is nothing at a location, or a file that cannot be shown. -/
def ShowsNothing (tree : FileTree) (location : Location) : Prop :=
  ∀ node, tree.node? location = some node → ∃ file, node = .file file ∧ ¬file.IsText

theorem showsNothing_of_none
    {tree : FileTree} {location : Location} (absent : tree.node? location = none) :
    tree.ShowsNothing location := by
  intro node present
  rw [absent] at present
  cases present

theorem showsNothing_of_file
    {tree : FileTree} {location : Location} {file : File}
    (present : tree.node? location = some (.file file)) (noText : ¬file.IsText) :
    tree.ShowsNothing location := by
  intro node here
  rw [present] at here
  cases here
  exact ⟨file, rfl, noText⟩

/-- A location where nothing is shown stays one if nothing changes there. -/
theorem ShowsNothing.congr
    {before after : FileTree} {location : Location} (shows : before.ShowsNothing location)
    (same : after.node? location = before.node? location) :
    after.ShowsNothing location := by
  intro node present
  exact shows node (same ▸ present)

/-- Whether a change has changed nothing but files that cannot be shown. -/
structure ShowsSame (before after : FileTree) : Prop where
  working : after.working = before.working
  node? : ∀ location,
    after.node? location = before.node? location ∨
      before.ShowsNothing location ∧ after.ShowsNothing location

namespace ShowsSame

theorem refl (tree : FileTree) : ShowsSame tree tree :=
  ⟨rfl, fun _ => Or.inl rfl⟩

theorem symm {before after : FileTree} (same : ShowsSame before after) :
    ShowsSame after before := by
  refine ⟨same.working.symm, fun location => ?_⟩
  rcases same.node? location with kept | ⟨nothing, nothingAfter⟩
  · exact Or.inl kept.symm
  · exact Or.inr ⟨nothingAfter, nothing⟩

variable {before after : FileTree} (same : ShowsSame before after)

include same

theorem directory
    (location : Location) (isDirectory : before.node? location = some .directory) :
    after.node? location = some .directory := by
  rcases same.node? location with kept | ⟨nothing, _⟩
  · rw [kept, isDirectory]
  · obtain ⟨file, isFile, _⟩ := nothing _ isDirectory
    cases isFile

/-- A file that can be shown goes on being shown. -/
theorem hasText {path : Path} {file : File} (has : before.HasText path file) :
    after.HasText path file := by
  obtain ⟨isFile, isText⟩ := has
  have present := node?_of_fileAt isFile
  refine ⟨?_, isText⟩
  rw [fileAt_eq_ok_iff] at isFile ⊢
  apply nodeAt_of_directories same.directory same.working ?_ isFile
  rcases same.node? (path.locationFrom before.working) with kept | ⟨nothing, _⟩
  · exact kept
  · obtain ⟨other, isOther, noText⟩ := nothing _ present
    cases isOther
    exact absurd isText noText

theorem textAt?_eq (path : Path) : after.textAt? path = before.textAt? path := by
  apply Option.ext
  intro file
  rw [textAt?_eq_some_iff, textAt?_eq_some_iff]
  exact ⟨same.symm.hasText, same.hasText⟩

end ShowsSame

end FileTree

end SourcePreview
