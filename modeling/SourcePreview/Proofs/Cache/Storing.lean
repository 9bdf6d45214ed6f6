import SourcePreview.Proofs.Cache.Listing

/-!
# When storing succeeds

Storing writes a temporary file and renames it.  In a directory that is there this succeeds unless
the name or the path of the temporary file is too long or a directory is in the way.
-/

namespace SourcePreview.DiskTier

open FileTree

/-- Whether a character stands in names of temporary files. -/
def IsTemporaryCharacter (character : Char) : Prop :=
  0x2E ≤ character.toNat ∧ character.toNat < 0x80 ∧ character.toNat ≠ 0x2F

instance (character : Char) : Decidable (IsTemporaryCharacter character) :=
  inferInstanceAs (Decidable (_ ∧ _))

theorem isTemporaryCharacter_of_mem_toString
    {value : Nat} {character : Char} (member : character ∈ (toString value).toList) :
    IsTemporaryCharacter character := by
  rw [Nat.toString_eq_ofList_toDigits, String.toList_ofList] at member
  have digit := Nat.isDigit_of_mem_toDigits (by decide) (by decide) member
  rw [Char.isDigit_iff_toNat] at digit
  have least : '0'.toNat = 0x30 := rfl
  have greatest : '9'.toNat = 0x39 := rfl
  refine ⟨?_, ?_, ?_⟩ <;> omega

theorem isTemporaryCharacter_of_mem_name
    {key : Key} {character : Char} (member : character ∈ key.name.toList) :
    IsTemporaryCharacter character := by
  have digit : ∀ value < 16, IsTemporaryCharacter (Text.lowerHexDigit value) := by
    decide
  rw [Key.name, String.toList_ofList] at member
  obtain ⟨byte, _, written⟩ := List.mem_flatMap.mp member
  have small := byte.toNat_lt
  simp only [Text.lowerHex, List.mem_cons, List.not_mem_nil, or_false] at written
  rcases written with rfl | rfl
  · exact digit _ (by omega)
  · exact digit _ (by omega)

section Temporary

variable
    {tree : FileTree} {name : String}
    (allowed : ∀ character ∈ name.toList, IsTemporaryCharacter character)

include allowed

/-- The name of a temporary file consists of the name that it is made for, digits, letters and
dots. -/
theorem isTemporaryCharacter_of_mem_temporaryName
    {character : Char} (member : character ∈ (temporaryName tree name).toList) :
    IsTemporaryCharacter character := by
  have fixed (text : String) (isFixed : text ∈ [".", ".tmp"]) (character : Char)
      (inside : character ∈ text.toList) : IsTemporaryCharacter character := by
    have all : ∀ text ∈ [".", ".tmp"],
        (text.toList.all fun character => IsTemporaryCharacter character) = true := by
      decide
    exact of_decide_eq_true (List.all_eq_true.mp (all text isFixed) character inside)
  simp only [temporaryName, String.toList_append, List.mem_append] at member
  rcases member with (((((dot | name) | dot) | process) | dot) | count) | tmp
  · exact fixed _ (by simp) character dot
  · exact allowed character name
  · exact fixed _ (by simp) character dot
  · exact isTemporaryCharacter_of_mem_toString process
  · exact fixed _ (by simp) character dot
  · exact isTemporaryCharacter_of_mem_toString count
  · exact fixed _ (by simp) character tmp

theorem toNat_of_mem_encode_temporaryName
    {byte : UInt8} (member : byte ∈ Text.encode (temporaryName tree name).toList) :
    0x2E ≤ byte.toNat ∧ byte.toNat ≠ 0x2F := by
  obtain ⟨character, isIn, written⟩ := List.mem_flatMap.mp member
  obtain ⟨least, small, noSlash⟩ := isTemporaryCharacter_of_mem_temporaryName allowed isIn
  rw [Text.utf8EncodeChar_of_ascii small, List.mem_singleton] at written
  rw [written, UInt8.toNat_ofNat', Nat.mod_eq_of_lt (by omega)]
  exact ⟨least, noSlash⟩

variable (tree)

/-- The name of a temporary file is plain. -/
theorem isPlainName_temporaryName :
    Path.IsPlainName (Text.encode (temporaryName tree name).toList) := by
  have ends := getLast?_temporaryName tree name
  exact
    ⟨Path.Component.ofPiece?_of_getLast? ends (by decide),
      fun slash => (toNat_of_mem_encode_temporaryName allowed slash).2 rfl⟩

end Temporary

/-- Whether the temporary file of a key can be named and neither it nor the entry would stand in the
place of a directory. -/
structure HasRoom
    (tier : DiskTier) (tree : FileTree) (directory : Location) (key : Key) : Prop where
  shortName : (Text.encode (temporaryName tree key.name).toList).length ≤ longestName
  shortPath :
    (tier.config.directory.child (temporaryName tree key.name)).bytes.length ≤ longestPath
  temporary :
    tree.node? (directory ++ [Text.encode (temporaryName tree key.name).toList]) ≠
      some .directory
  entry : tree.node? (directory ++ [key.fileName]) ≠ some .directory

theorem length_name_le_temporaryName (tree : FileTree) (name : String) :
    (Text.encode name.toList).length ≤
      (Text.encode (temporaryName tree name).toList).length := by
  simp only [temporaryName, String.toList_append, Text.encode_append, List.length_append]
  omega

theorem length_child_le
    (directory : Path) {left right : String}
    (leftPlain : Path.IsPlainName (Text.encode left.toList))
    (rightPlain : Path.IsPlainName (Text.encode right.toList))
    (shorter : (Text.encode left.toList).length ≤ (Text.encode right.toList).length) :
    (directory.child left).bytes.length ≤ (directory.child right).bytes.length := by
  obtain ⟨between, _, bytes⟩ := Path.exists_bytes_child directory
  rw [bytes leftPlain, bytes rightPlain]
  simp only [List.length_append]
  omega

/-- The paths of all entries are equally long. -/
theorem length_child_name_le (directory : Path) (key other : Key) :
    (directory.child key.name).bytes.length ≤ (directory.child other.name).bytes.length :=
  length_child_le directory (Key.isPlainName_of_isName key.isName_name)
    (Key.isPlainName_of_isName other.isName_name)
    (key.length_fileName.trans other.length_fileName.symm).le

/-- Storing succeeds where there is room. -/
theorem exists_store_eq_ok_of_hasRoom
    {tier : DiskTier} {tree : FileTree} {directory : Location}
    (located : tier.config.directory.locationFrom tree.working = directory)
    (isDirectory : tree.nodeAt tier.config.directory = .ok .directory)
    {key : Key} (room : tier.HasRoom tree directory key) (styled : StyledText) :
    ∃ after, tier.store tree key styled = (after, .ok ()) := by
  have allowed := fun character => @isTemporaryCharacter_of_mem_name key character
  have plain := isPlainName_temporaryName tree allowed
  have entryPlain := Key.isPlainName_of_isName key.isName_name
  have shorter := length_name_le_temporaryName tree key.name
  have walked :=
    place_child_of_nodeAt isDirectory plain
      (fun zero => absurd (toNat_of_mem_encode_temporaryName allowed zero).1 (by decide))
      room.shortName room.shortPath
  have entryWalked :=
    place_child_of_nodeAt isDirectory entryPlain key.zero_not_mem_fileName
      (shorter.trans room.shortName)
      ((length_child_le _ entryPlain plain shorter).trans room.shortPath)
  rw [located, ← place_countName] at walked entryWalked
  have writes := writeFile_of_place walked room.temporary (Entry.encode styled)
  have location := Path.locationFrom_child tree.working tier.config.directory plain
  have distinct :=
    isNoEntry_child endsNoEntry_temporaryEnd tier.config.directory
      (getLast?_temporaryName tree key.name) tree.working directory key
  rw [location, located] at distinct
  have noDirectory :
      (tree.countName.putBytes
          (directory ++ [Text.encode (temporaryName tree key.name).toList])
          (Entry.encode styled)).node? (directory ++ [key.fileName]) ≠ some .directory := by
    rw [putBytes, node?_put_of_ne _ _ distinct]
    exact room.entry
  have renames :=
    renameFile_of_place (fileAt_of_writeFile writes)
      ((edits_of_writeFile writes).place entryWalked) noDirectory
  rw [store_eq, replaceFile_plain, writes]
  dsimp only
  rw [renames]
  exact ⟨_, rfl⟩

end SourcePreview.DiskTier
