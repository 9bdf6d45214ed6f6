import SourcePreview.Proofs.Theme.Listing

/-!
# The order of the list of themes

The files of the user are gone through in the order of their names, and a file is passed over if
another one before it has given the same name to a theme.  After them come the shipped themes whose
names no file has given.  So no name is listed twice, and the list has an entry for every name that
there is, in the order of what the entries are listed from.
-/

namespace SourcePreview.Theme

/-! ### Going through files -/

section Files

variable {tree : FileTree} {directory : Path} {seen : List String} {files : List Bytes}

theorem not_mem_seen_of_mem_userEntries
    {entry : ThemeEntry} (member : entry ∈ userEntries tree directory seen files) :
    entry.id ∉ seen :=
  (mem_userEntries_iff.mp member).1

/-- No name is listed twice from files. -/
theorem nodup_ids_userEntries :
    ((userEntries tree directory seen files).map ThemeEntry.id).Nodup := by
  induction files generalizing seen with
  | nil => exact List.nodup_nil
  | cons file files ih =>
      rw [userEntries]
      split
      · next id _ =>
          split
          · exact ih
          · rw [List.map_cons, List.nodup_cons]
            refine ⟨fun again => ?_, ih⟩
            obtain ⟨entry, member, same⟩ := List.mem_map.mp again
            exact not_mem_seen_of_mem_userEntries member (same ▸ List.mem_cons_self)
      · exact ih

/-- Whether a file for one entry comes before all files for another one. -/
def ComesBefore (files : List Bytes) (left right : ThemeEntry) : Prop :=
  ∃ first ∈ files, idOfFile? first = some left.id ∧
    ∀ other ∈ files, idOfFile? other = some right.id → first < other

/-- A file that is not for the later entry changes nothing. -/
theorem ComesBefore.cons
    {left right : ThemeEntry} (before : ComesBefore files left right) {file : Bytes}
    (different : idOfFile? file ≠ some right.id) :
    ComesBefore (file :: files) left right := by
  obtain ⟨first, member, isFirst, others⟩ := before
  refine ⟨first, List.mem_cons_of_mem _ member, isFirst, fun other listed isOther => ?_⟩
  rcases List.mem_cons.mp listed with rfl | listed
  · exact (different isOther).elim
  · exact others other listed isOther

/-- Files that are gone through in order give entries in order. -/
theorem pairwise_userEntries (sorted : files.Pairwise (· ≤ ·)) :
    (userEntries tree directory seen files).Pairwise (ComesBefore files) := by
  induction files generalizing seen with
  | nil => exact List.Pairwise.nil
  | cons file files ih =>
      obtain ⟨least, sorted⟩ := List.pairwise_cons.mp sorted
      -- What comes later is for no name that was seen, and so it is not for that of this file.
      have skips {old : List String} (new : ∀ id ∈ idOfFile? file, id ∈ old) :
          (userEntries tree directory old files).Pairwise (ComesBefore (file :: files)) := by
        refine (ih sorted).imp_of_mem fun _ later before => before.cons fun gives => ?_
        exact not_mem_seen_of_mem_userEntries later (new _ gives)
      rw [userEntries]
      split
      · next id gives =>
          split
          · next known => exact skips (by simpa [gives] using known)
          · refine List.pairwise_cons.mpr ⟨fun later member => ?_, skips (by simp [gives])⟩
            refine ⟨file, List.mem_cons_self, gives, fun other listed isOther => ?_⟩
            have apart : later.id ≠ id := by
              rintro rfl
              exact not_mem_seen_of_mem_userEntries member List.mem_cons_self
            have different : file ≠ other := by
              rintro rfl
              exact apart (Option.some.inj (isOther.symm.trans gives))
            have listed := (List.mem_cons.mp listed).resolve_left different.symm
            exact Std.lt_of_le_of_ne (least other listed) different
      · next none => exact skips (by simp [none])

end Files

/-! ### The whole list -/

/-- Whether what is listed from one origin comes before what is listed from another: the files of
the directory come in the order of their paths, which is that of the bytes of their names, and then
the shipped themes in their order. -/
def Origin.Precedes : Origin → Origin → Prop
  | .file _ left, .file _ right => left < right
  | .file _ _, .shipped _ => True
  | .shipped _, .file _ _ => False
  | .shipped left, .shipped right =>
    [left.id, right.id].Sublist (ShippedTheme.all.map ShippedTheme.id)

section Listed

variable {environment : Environment} {tree : FileTree} {entry : ThemeEntry}

theorem IsListedFrom.source_file
    {directory : Path} {name : Bytes}
    (fromFile : IsListedFrom environment tree entry (.file directory name)) :
    entry.source = .user := by
  cases fromFile
  rfl

theorem IsListedFrom.source_shipped
    {theme : ShippedTheme}
    (fromShipped : IsListedFrom environment tree entry (.shipped theme)) :
    entry.source = .shipped ∧ entry.id = theme.id := by
  cases fromShipped
  exact ⟨rfl, rfl⟩

theorem source_of_mem_userThemes (member : entry ∈ userThemes environment tree) :
    entry.source = .user := by
  obtain ⟨_, _, fromFile⟩ := mem_userThemes_iff.mp member
  exact fromFile.source_file

/-- The entries of the user are listed in the order of their files. -/
theorem pairwise_userThemes :
    (userThemes environment tree).Pairwise fun left right =>
      ∀ directory name other otherName,
        IsListedFrom environment tree left (.file directory name) →
          IsListedFrom environment tree right (.file other otherName) → name < otherName := by
  cases themes : environment.themesDirectory? with
  | none =>
      rw [userThemes, themes]
      exact List.Pairwise.nil
  | some folder =>
      rw [userThemes, themes]
      refine (pairwise_userEntries (pairwise_sortedNames tree folder)).imp ?_
      rintro left right ⟨file, listed, isFirst, others⟩ _ name _ otherName fromLeft fromRight
      cases fromLeft with
      | user leftFile first =>
          cases fromRight with
          | user rightFile =>
              obtain ⟨leftThemes, -⟩ := isThemeFile_iff.mp leftFile
              obtain ⟨rightThemes, rightListed, gives⟩ := isThemeFile_iff.mp rightFile
              cases themes.symm.trans leftThemes
              cases themes.symm.trans rightThemes
              have before := first file (isThemeFile_iff.mpr ⟨themes, listed, isFirst⟩)
              exact List.lt_of_le_of_lt before (others otherName rightListed gives)

/-- The list has the entries in the order of what they are listed from. -/
theorem pairwise_listAll :
    (listAll environment tree).Pairwise fun left right =>
      ∀ leftOrigin rightOrigin,
        IsListedFrom environment tree left leftOrigin →
          IsListedFrom environment tree right rightOrigin →
            leftOrigin.Precedes rightOrigin := by
  rw [listAll]
  refine List.pairwise_append.mpr ⟨?users, List.pairwise_map.mpr ?shipped, ?between⟩
  case users =>
    refine pairwise_userThemes.imp_of_mem fun leftMember rightMember before => ?_
    have leftSource := source_of_mem_userThemes leftMember
    have rightSource := source_of_mem_userThemes rightMember
    rintro (⟨folder, name⟩ | theme) (⟨other, otherName⟩ | otherTheme) fromLeft fromRight
    · exact before _ _ _ _ fromLeft fromRight
    · cases rightSource.symm.trans fromRight.source_shipped.1
    · cases leftSource.symm.trans fromLeft.source_shipped.1
    · cases rightSource.symm.trans fromRight.source_shipped.1
  case shipped =>
    refine List.pairwise_iff_forall_sublist.mpr fun {left right} both => ?_
    rintro (⟨folder, name⟩ | theme) (⟨other, otherName⟩ | otherTheme) fromLeft fromRight
    · cases fromLeft.source_file
    · cases fromLeft.source_file
    · cases fromRight.source_file
    · have inOrder := (both.trans List.filter_sublist).map ShippedTheme.id
      change [theme.id, otherTheme.id].Sublist _
      rwa [← fromLeft.source_shipped.2, ← fromRight.source_shipped.2]
  case between =>
    intro left leftMember right rightMember
    obtain ⟨shipped, -, rfl⟩ := List.mem_map.mp rightMember
    have leftSource := source_of_mem_userThemes leftMember
    rintro (⟨folder, name⟩ | theme) (⟨other, otherName⟩ | otherTheme) fromLeft fromRight
    · cases fromRight.source_file
    · trivial
    · cases fromRight.source_file
    · cases leftSource.symm.trans fromLeft.source_shipped.1

/-- No name is listed twice. -/
theorem nodup_ids_listAll : ((listAll environment tree).map ThemeEntry.id).Nodup := by
  have shippedIds : (ShippedTheme.all.map ShippedTheme.id).Nodup := by decide
  have userIds : ((userThemes environment tree).map ThemeEntry.id).Nodup := by
    rw [userThemes]
    split
    · exact nodup_ids_userEntries
    · exact List.nodup_nil
  rw [listAll, List.map_append, List.map_map]
  refine List.nodup_append.mpr ⟨userIds, (List.filter_sublist.map _).nodup shippedIds, ?_⟩
  rintro id isUser _ isShipped rfl
  obtain ⟨entry, member, rfl⟩ := List.mem_map.mp isUser
  obtain ⟨theme, isUnseen, same⟩ := List.mem_map.mp isShipped
  have unseen := List.all_eq_true.mp (List.mem_filter.mp isUnseen).2 entry member
  exact bne_iff_ne.mp unseen same.symm

/-- Every shipped theme is listed by its name, as itself or as the theme of a file. -/
theorem id_mem_listAll {theme : ShippedTheme} (member : theme ∈ ShippedTheme.all) :
    theme.id ∈ (listAll environment tree).map ThemeEntry.id := by
  rw [listAll, List.map_append, List.mem_append, List.map_map]
  by_cases users : theme.id ∈ (userThemes environment tree).map ThemeEntry.id
  · exact .inl users
  · refine .inr (List.mem_map.mpr ⟨theme, List.mem_filter.mpr ⟨member, ?_⟩, rfl⟩)
    refine List.all_eq_true.mpr fun entry isUser => bne_iff_ne.mpr fun same => ?_
    exact users (List.mem_map.mpr ⟨entry, isUser, same⟩)

end Listed

/-- The list of themes has no name twice, and the names of all shipped themes are in it.  Every file
of a theme has an entry of the user, every other entry is that of a shipped theme, and the entries
are in the order of what they are listed from: first those of files, in the order of the files, and
then those of shipped themes. -/
theorem listAll_nodup_complete_inOrder (environment : Environment) (tree : FileTree) :
    ((listAll environment tree).map ThemeEntry.id).Nodup ∧
      (∀ theme ∈ ShippedTheme.all,
        ((listAll environment tree).map ThemeEntry.id).count theme.id = 1) ∧
      (∀ id directory name, IsThemeFile environment tree id directory name →
        ∃ entry ∈ listAll environment tree, entry.id = id ∧ entry.source = .user) ∧
      (∀ entry ∈ listAll environment tree,
        (entry.source = .user ∧
            ∃ directory name,
              IsListedFrom environment tree entry (.file directory name) ∧
                IsThemeFile environment tree entry.id directory name) ∨
          (entry.source = .shipped ∧
            ∃ theme ∈ ShippedTheme.all,
              IsListedFrom environment tree entry (.shipped theme) ∧ theme.id = entry.id ∧
                ∀ directory name, ¬IsThemeFile environment tree entry.id directory name)) ∧
      (listAll environment tree).Pairwise fun left right =>
        ∀ leftOrigin rightOrigin,
          IsListedFrom environment tree left leftOrigin →
            IsListedFrom environment tree right rightOrigin →
              leftOrigin.Precedes rightOrigin := by
  refine ⟨nodup_ids_listAll, fun theme member => ?once, ?files, ?others, pairwise_listAll⟩
  case once => exact List.count_eq_one_of_mem nodup_ids_listAll (id_mem_listAll member)
  case files =>
    intro id directory name isFile
    obtain ⟨entry, isUser, isNamed⟩ := exists_mem_userThemes_iff.mpr ⟨directory, name, isFile⟩
    exact
      ⟨entry, List.mem_append_left _ isUser, isNamed, source_of_mem_userThemes isUser⟩
  case others =>
    intro entry member
    obtain ⟨origin, fromOrigin⟩ := mem_listAll_iff.mp member
    cases fromOrigin with
    | user isFile first => exact .inl ⟨rfl, _, _, .user isFile first, isFile⟩
    | shipped isShipped noFile =>
        exact .inr ⟨rfl, _, isShipped, .shipped isShipped noFile, rfl, noFile⟩

/-- Two files with different extensions are listed with the shipped themes behind them. -/
theorem listAll_nodup_complete_inOrder_sample :
    (∃ entry ∈ listAll sampleEnvironment sampleTree, entry.id = "solar" ∧ entry.source = .user) ∧
      ((listAll sampleEnvironment sampleTree).map ThemeEntry.id).count "dark" = 1 := by
  obtain ⟨-, once, files, -⟩ := listAll_nodup_complete_inOrder sampleEnvironment sampleTree
  have isFile :
      IsThemeFile sampleEnvironment sampleTree "solar" sampleDirectory (fileName "solar" "yml") :=
    ⟨rfl, ⟨_, list_sampleTree, by decide⟩, by decide, "yml", by decide, rfl⟩
  exact ⟨files _ _ _ isFile, once ShippedTheme.dark List.mem_cons_self⟩

end SourcePreview.Theme
