import SourcePreview.Proofs.FileTree.Directories

/-!
# Names of files

A name is cut at its last dot into a stem and an extension, unless nothing stands before the dot.
The names in the tree of a file system have no slash and no zero in them and are not too long, so a
path that goes on with such a name leads to what is in the directory under it.
-/

namespace SourcePreview

namespace Path

/-- What stands behind the last dot of a name, or all of it if there is no dot. -/
def lastPart (name : Bytes) : Bytes :=
  (name.reverse.takeWhile (· ≠ dot)).reverse

theorem dot_notMem_lastPart (name : Bytes) : dot ∉ lastPart name := by
  intro member
  have passes := List.mem_takeWhile_imp (List.mem_reverse.mp member)
  simp at passes

theorem lastPart_append {part : Bytes} (noDot : dot ∉ part) (front : Bytes) :
    lastPart (front ++ dot :: part) = part := by
  have passes : ∀ byte ∈ part.reverse, decide (byte ≠ dot) = true := by
    intro byte member
    refine decide_eq_true ?_
    rintro rfl
    exact noDot (List.mem_reverse.mp member)
  rw [lastPart, List.reverse_append, List.reverse_cons, List.append_assoc, List.singleton_append,
    List.takeWhile_append_of_pos passes, List.takeWhile_cons_of_neg (by simp), List.append_nil,
    List.reverse_reverse]

theorem exists_eq_append_lastPart {name : Bytes} (shorter : (lastPart name).length ≠ name.length) :
    ∃ front, name = front ++ dot :: lastPart name := by
  have parts := List.takeWhile_append_dropWhile (p := (· ≠ dot)) (l := name.reverse)
  cases rest : name.reverse.dropWhile (· ≠ dot) with
  | nil =>
      rw [rest, List.append_nil] at parts
      exact (shorter (by rw [lastPart, parts, List.reverse_reverse])).elim
  | cons first others =>
      have isDot := List.head?_dropWhile_not (fun byte : UInt8 => decide (byte ≠ dot)) name.reverse
      rw [rest] at parts isDot
      obtain rfl : first = dot := by simpa using isDot
      refine ⟨others.reverse, ?_⟩
      have whole := congrArg List.reverse parts
      simpa [lastPart] using whole.symm

/-- A name is cut at its last dot, unless nothing stands before that. -/
theorem splitName_eq_iff {name stem extension : Bytes} :
    splitName name = (stem, some extension) ↔
      stem ≠ [] ∧ dot ∉ extension ∧ name = stem ++ dot :: extension := by
  have cut (front part : Bytes) :
      (front ++ dot :: part).take ((front ++ dot :: part).length - part.length - 1) = front := by
    rw [List.length_append, List.length_cons, show
      front.length + (part.length + 1) - part.length - 1 = front.length by omega, List.take_left]
  have unfolded :
      splitName name =
        if (lastPart name).length = name.length ∨
            name.take (name.length - (lastPart name).length - 1) = [] then
          (name, none)
        else (name.take (name.length - (lastPart name).length - 1), some (lastPart name)) := rfl
  rw [unfolded]
  constructor
  · intro split
    split at split
    · cases split
    · next whole =>
        obtain ⟨shorter, nonempty⟩ := not_or.mp whole
        obtain ⟨front, parts⟩ := exists_eq_append_lastPart shorter
        have noDot := dot_notMem_lastPart name
        generalize lastPart name = part at *
        subst parts
        rw [cut] at split nonempty
        cases split
        exact ⟨nonempty, noDot, rfl⟩
  · rintro ⟨nonempty, noDot, rfl⟩
    rw [lastPart_append noDot, cut, if_neg (not_or.mpr ⟨?_, nonempty⟩)]
    rw [List.length_append, List.length_cons]
    omega

end Path

namespace FileTree

/-- Whether bytes are the name of a file in a file system. -/
structure IsFileName (name : Bytes) : Prop where
  noSlash : Path.slash ∉ name
  noZero : 0 ∉ name
  short : name.length ≤ longestName

instance (name : Bytes) : Decidable (IsFileName name) :=
  decidable_of_iff (Path.slash ∉ name ∧ 0 ∉ name ∧ name.length ≤ longestName)
    ⟨fun ⟨noSlash, noZero, short⟩ => ⟨noSlash, noZero, short⟩,
      fun ⟨noSlash, noZero, short⟩ => ⟨noSlash, noZero, short⟩⟩

/-- Whether all names in a tree are those of files in a file system. -/
def HasFileNames (tree : FileTree) : Prop :=
  ∀ entry ∈ tree.nodes, ∀ name ∈ entry.1, IsFileName name

instance (tree : FileTree) : Decidable tree.HasFileNames :=
  inferInstanceAs (Decidable (∀ entry ∈ tree.nodes, ∀ name ∈ entry.1, IsFileName name))

theorem HasFileNames.isFileName
    {tree : FileTree} (names : tree.HasFileNames) {directory : Location} {name : Bytes}
    (listed : name ∈ tree.childNames directory) :
    IsFileName name := by
  obtain ⟨entry, member, gives⟩ := List.mem_filterMap.mp listed
  split at gives
  · exact names entry member name (List.mem_of_getLast? gives)
  · cases gives

end FileTree

end SourcePreview
