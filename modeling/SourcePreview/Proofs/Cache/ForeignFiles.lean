import SourcePreview.Proofs.Cache.Atomicity
import SourcePreview.Proofs.Cache.FewestRemovals

/-!
# Files that are not the tier's

A tier writes, touches and removes files with the names that it gives to its own, wherever it was
pointed to.  All other files stay as they are, with one exception.  What a look through the
directory takes for a temporary file that was left behind is any file with a certain ending that is
older than ten minutes, and such a file is removed whoever made it.
-/

namespace SourcePreview.DiskTier

open FileTree

/-- The names that a tier gives to files: the digits of a key, and for temporary files a dot, a
name, the number of a process and that of a write, and an ending, each after a dot. -/
inductive IsGivenName : (name : String) → Prop
  | entry {name : String} (digits : Key.IsDigits name) : IsGivenName name
  | temporary {base : String}
      (allowed : ∀ character ∈ base.toList, IsTemporaryCharacter character)
      (process write : Nat) :
      IsGivenName
        ("." ++ base ++ "." ++ toString process ++ "." ++ toString write ++ ".tmp")

/-- Whether no file at a location has a name that the tier in a directory gives to files there. -/
def IsForeign (directory location : Location) : Prop :=
  ∀ name, IsGivenName name → location ≠ directory ++ [Text.encode name.toList]

/-- Whether a file in a directory is taken for a temporary file that was left behind. -/
def LooksStale
    (directory location : Location) (file : File) (now : Timestamp) : Prop :=
  ∃ name : String,
    location = directory ++ [Text.encode name.toList] ∧ name.endsWith ".tmp" = true ∧
      staleAge < now.nanoseconds - file.modified.nanoseconds

/-- Whether the names of all files in a directory are names of one piece, as they are on disk. -/
def HasPlainNames (directory : Location) (tree : FileTree) : Prop :=
  ∀ name file, tree.node? (directory ++ [name]) = some (.file file) → Path.IsPlainName name

section Names

variable {directory location : Location} {name : String}

theorem isGivenName_temporaryName
    (tree : FileTree) (allowed : ∀ character ∈ name.toList, IsTemporaryCharacter character) :
    IsGivenName (temporaryName tree name) :=
  .temporary allowed tree.process tree.named

theorem IsGivenName.isPlainName (own : IsGivenName name) :
    Path.IsPlainName (Text.encode name.toList) := by
  cases own with
  | entry digits => exact Key.isPlainName_of_isName (Key.isName_iff.mpr digits)
  | temporary allowed process write =>
      exact isPlainName_temporaryName ⟨[], [], process, write, ⟨0⟩⟩ allowed

theorem IsForeign.ne_entry (foreign : IsForeign directory location) (key : Key) :
    location ≠ directory ++ [key.fileName] :=
  foreign key.name (.entry key.isDigits_name)

theorem IsForeign.ne_temporary
    (foreign : IsForeign directory location) {tree : FileTree} {path : Path}
    (located : path.locationFrom tree.working = directory)
    (allowed : ∀ character ∈ name.toList, IsTemporaryCharacter character) :
    location ≠ temporaryLocation tree path name := by
  rw [temporaryLocation, located]
  exact foreign _ (isGivenName_temporaryName tree allowed)

end Names

/-- A file whose name does not start with a dot is not the tier's, unless the name has the digits of
a key. -/
theorem isForeign_of_head?_ne
    {name : String} (noDigits : ¬Key.IsDigits name) (noDot : name.toList.head? ≠ some '.')
    (directory : Location) :
    IsForeign directory (directory ++ [Text.encode name.toList]) := by
  intro other own same
  have sameBytes := List.singleton_inj.mp (List.append_cancel_left same)
  obtain rfl : name = other := String.toList_injective (Text.encode_injective sameBytes)
  cases own with
  | entry digits => exact noDigits digits
  | temporary allowed process write =>
      apply noDot
      simp only [String.toList_append]
      rfl

/-- Whether the files that are not the tier's are the same before and after. -/
structure KeepsForeign (directory : Location) (before after : FileTree) : Prop where
  working : after.working = before.working
  file_iff : ∀ {location}, IsForeign directory location → ∀ file,
    after.node? location = some (.file file) ↔ before.node? location = some (.file file)

namespace KeepsForeign

variable {directory : Location} {first second third : FileTree}

theorem refl (directory : Location) (tree : FileTree) : KeepsForeign directory tree tree :=
  ⟨rfl, fun _ _ => Iff.rfl⟩

theorem trans
    (earlier : KeepsForeign directory first second)
    (later : KeepsForeign directory second third) :
    KeepsForeign directory first third :=
  ⟨later.working.trans earlier.working, fun foreign file =>
    (later.file_iff foreign file).trans (earlier.file_iff foreign file)⟩

theorem of_node?
    (working : second.working = first.working)
    (same : ∀ {location}, IsForeign directory location →
      second.node? location = first.node? location) :
    KeepsForeign directory first second :=
  ⟨working, fun foreign file => by rw [same foreign]⟩

theorem of_addsDirectories (adds : AddsDirectories first second) :
    KeepsForeign directory first second := by
  refine ⟨adds.working, fun {location} _ file => ?_⟩
  rcases adds.node? location with same | ⟨absent, added⟩
  · rw [same]
  · rw [absent, added]
    exact ⟨nofun, nofun⟩

end KeepsForeign

section Operations

variable {directory : Location}

theorem keepsForeign_openAt
    {tree : FileTree} {config : DiskConfig}
    (located : config.directory.locationFrom tree.working = directory) :
    KeepsForeign directory tree (openAt tree config).1 := by
  have made := addsDirectories_createDirectories tree config.directory
  rw [openAt_eq]
  split
  · next creates =>
      rw [creates] at made
      exact .of_addsDirectories made
  · next changed creates =>
      rw [creates] at made
      have tried := leavesAllBut_probe (.plain changed) config.directory
      have probed :
          KeepsForeign directory changed (probe (.plain changed) config.directory).1.tree := by
        refine .of_node? tried.keeps.working fun foreign => ?_
        have elsewhere :=
          foreign.ne_temporary (made.working ▸ located) isTemporaryCharacter_of_mem_probe
        exact tried.node? _ elsewhere elsewhere
      have opened := (KeepsForeign.of_addsDirectories made).trans probed
      split
      all_goals
        next probes =>
          rw [probes] at opened
          exact opened

variable {tier : DiskTier} {tree : FileTree}
variable (located : tier.config.directory.locationFrom tree.working = directory)

include located

theorem keepsForeign_store (key : Key) (styled : StyledText) :
    KeepsForeign directory tree (tier.store tree key styled).1 := by
  have allowed := fun character => @isTemporaryCharacter_of_mem_name key character
  change KeepsForeign directory tree (tier.storeIn (.plain tree) key styled).1.tree
  cases stores : tier.storeIn (.plain tree) key styled with
  | mk after result =>
      cases result with
      | ok _ =>
          have stored := hasStored_of_storeIn stores
          refine .of_node? stored.keeps.working fun foreign => ?_
          have elsewhere := foreign.ne_temporary located allowed
          refine stored.node? _ ?_ elsewhere elsewhere
          rw [FileSystem.tree_plain, located]
          exact foreign.ne_entry key
      | error failure =>
          obtain ⟨_, leaves⟩ := leavesAllBut_of_storeIn_eq_error stores
          refine .of_node? leaves.keeps.working fun foreign => ?_
          have elsewhere := foreign.ne_temporary located allowed
          exact leaves.node? _ elsewhere elsewhere

theorem keepsForeign_removeTolerant (key : Key) :
    KeepsForeign directory tree
      (removeTolerant tree (tier.config.directory.child key.name)).1 := by
  refine .of_node? (losesFiles_removeTolerant tree _).working fun foreign => ?_
  refine node?_removeTolerant tree _ ?_
  rw [locationFrom_entry located]
  exact foreign.ne_entry key

theorem keepsForeign_get (key : Key) : KeepsForeign directory tree (tier.get tree key).1 := by
  rw [get_eq_readEntry]
  rcases readEntry_cases tree (tier.config.directory.child key.name) with
    none | ⟨_, _, ⟨styled, touched, _, touches, found⟩ | ⟨_, _, discarded⟩⟩
  · rw [none]
    exact .refl directory tree
  · rw [found]
    obtain ⟨file, _, rfl⟩ := eq_put_of_touch touches
    refine .of_node? rfl fun {location} foreign => ?_
    rw [locationFrom_entry located, node?_put_of_ne _ _ (foreign.ne_entry key), node?_tick]
  · rw [discarded]
    exact keepsForeign_removeTolerant located key

end Operations

/-- Whether, where the directory of a tier has plain names, files are gone but none of those that
are not the tier's, except what was taken for a temporary file. -/
structure Spares (tier : DiskTier) (directory : Location) (before after : FileTree) : Prop where
  loses : LosesFiles before after
  kept :
    tier.config.directory.locationFrom before.working = directory →
      HasPlainNames directory before →
        ∀ {location}, IsForeign directory location → ∀ {file},
          before.node? location = some (.file file) →
            after.node? location = some (.file file) ∨
              LooksStale directory location file before.clock

theorem HasPlainNames.of_losesFiles
    {directory : Location} {before after : FileTree}
    (plain : HasPlainNames directory before) (loses : LosesFiles before after) :
    HasPlainNames directory after :=
  fun name file present => plain name file (loses.node?_eq_some present)

section Looks

variable {tier : DiskTier} {directory : Location} {first second third : FileTree}

theorem Spares.refl (tree : FileTree) : Spares tier directory tree tree :=
  ⟨.refl tree, fun _ _ _ _ _ present => .inl present⟩

theorem Spares.trans
    (earlier : Spares tier directory first second)
    (later : Spares tier directory second third) :
    Spares tier directory first third := by
  refine ⟨earlier.loses.trans later.loses, ?_⟩
  intro located plain location foreign file present
  rcases earlier.kept located plain foreign present with kept | stale
  · have locatedThen : tier.config.directory.locationFrom second.working = directory := by
      rw [earlier.loses.working, located]
    rw [← earlier.loses.clock]
    exact later.kept locatedThen (plain.of_losesFiles earlier.loses) foreign kept
  · exact .inr stale

theorem spares_removeTolerant (tree : FileTree) (key : Key) :
    Spares tier directory tree
      (removeTolerant tree (tier.config.directory.child key.name)).1 :=
  ⟨losesFiles_removeTolerant tree _, fun located _ _ foreign file present =>
    .inl (((keepsForeign_removeTolerant located key).file_iff foreign file).mpr present)⟩

/-- What is stale is a file that looks so, at the location that its name leads to. -/
theorem looksStale_of_isStale
    {tree : FileTree} {path : Path} {name : String}
    (located : path.locationFrom tree.working = directory)
    (plain : HasPlainNames directory tree) (stale : isStale path tree name = true) :
    ∃ file,
      tree.node? ((path.child name).locationFrom tree.working) = some (.file file) ∧
        LooksStale directory ((path.child name).locationFrom tree.working) file tree.clock := by
  rw [isStale] at stale
  split at stale
  · next file listed =>
      simp only [Bool.and_eq_true, decide_eq_true_eq] at stale
      obtain ⟨⟨_, ends⟩, old⟩ := stale
      have present := node?_of_listedNode? listed
      rw [located] at present
      rw [Path.locationFrom_child _ _ (plain _ _ present), located]
      exact ⟨file, present, name, rfl, ends, old⟩
  · cases stale

/-- Discarding files leaves all other locations as they are. -/
theorem node?_foldl_discard
    {path : Path} {names : List String} {tree : FileTree} {location : Location}
    (elsewhere : ∀ name ∈ names, location ≠ (path.child name).locationFrom tree.working) :
    (names.foldl (fun tree name => discard tree (path.child name)) tree).node? location =
      tree.node? location := by
  induction names generalizing tree with
  | nil => rfl
  | cons name names ih =>
      rw [List.forall_mem_cons] at elsewhere
      have working := (losesFiles_removeTolerant tree (path.child name)).working
      have first : (discard tree (path.child name)).node? location = tree.node? location :=
        node?_removeTolerant tree _ elsewhere.1
      rw [List.foldl_cons, ih, first]
      intro other member
      rw [discard, working]
      exact elsewhere.2 other member

/-- A look through the directory removes only what looks stale. -/
theorem spares_scan (tree : FileTree) : Spares tier directory tree (tier.scan tree).1 := by
  refine ⟨losesFiles_scan tier tree, fun located plain {location} foreign {file} present => ?_⟩
  by_cases stale : LooksStale directory location file tree.clock
  · exact .inr stale
  refine .inl ?_
  unfold scan
  dsimp only
  split
  · exact present
  · next files lists =>
      dsimp only
      rw [node?_foldl_discard, present]
      rintro name member rfl
      obtain ⟨other, found, looksStale⟩ :=
        looksStale_of_isStale located plain (List.mem_filter.mp member).2
      rw [present] at found
      cases found
      exact stale looksStale

theorem spares_cleanup (tree : FileTree) : Spares tier directory tree (tier.cleanup tree).1 :=
  related_cleanup Spares.refl Spares.trans spares_removeTolerant spares_scan tree

theorem spares_settle (tree : FileTree) : Spares tier directory tree (tier.settle tree).2 :=
  related_settle Spares.refl Spares.trans spares_removeTolerant spares_scan tree

theorem spares_clear (tree : FileTree) : Spares tier directory tree (tier.clear tree).1 :=
  related_clear Spares.refl Spares.trans spares_removeTolerant spares_scan tree

end Looks

/-- Whether an operation looks through the directory, perhaps only because enough was written. -/
def Operation.looks : Operation → Bool
  | .set _ _ | .stats | .cleanup | .clear => true
  | _ => false

/-- Whether no file that is not the tier's was added or changed, and one is gone only if it looked
stale to an operation that looks through the directory. -/
structure SparesForeign
    (looks : Bool) (directory : Location) (before after : FileTree) : Prop where
  working : after.working = before.working
  was : ∀ {location}, IsForeign directory location → ∀ {file},
    after.node? location = some (.file file) → before.node? location = some (.file file)
  stays : ∀ {location}, IsForeign directory location → ∀ {file},
    before.node? location = some (.file file) →
      after.node? location = some (.file file) ∨
        looks = true ∧ LooksStale directory location file after.clock

section SparesForeign

variable {directory : Location} {first second third : FileTree} {looks : Bool}

theorem KeepsForeign.sparesForeign (keeps : KeepsForeign directory first second) :
    SparesForeign looks directory first second :=
  ⟨keeps.working, fun foreign file => (keeps.file_iff foreign file).mp,
    fun foreign file present => .inl ((keeps.file_iff foreign file).mpr present)⟩

theorem Spares.sparesForeign
    {tier : DiskTier} (spares : Spares tier directory first second)
    (located : tier.config.directory.locationFrom first.working = directory)
    (plain : HasPlainNames directory first) :
    SparesForeign true directory first second :=
  ⟨spares.loses.working, fun _ _ => spares.loses.node?_eq_some, fun foreign file present => by
    rw [spares.loses.clock]
    exact (spares.kept located plain foreign present).imp_right (And.intro rfl)⟩

theorem KeepsForeign.trans_sparesForeign
    (keeps : KeepsForeign directory first second)
    (spares : SparesForeign looks directory second third) :
    SparesForeign looks directory first third :=
  ⟨spares.working.trans keeps.working,
    fun foreign file present => (keeps.file_iff foreign file).mp (spares.was foreign present),
    fun foreign file present => spares.stays foreign ((keeps.file_iff foreign file).mpr present)⟩

/-- Files that are the tier's have plain names, so all have them if they had them before. -/
theorem HasPlainNames.of_sparesForeign
    (plain : HasPlainNames directory first) (spares : SparesForeign looks directory first second) :
    HasPlainNames directory second := by
  intro name file present
  by_cases foreign : IsForeign directory (directory ++ [name])
  · exact plain name file (spares.was foreign present)
  · simp only [IsForeign, not_forall, not_not] at foreign
    obtain ⟨own, isOwn, same⟩ := foreign
    rw [List.singleton_inj.mp (List.append_cancel_left same)]
    exact isOwn.isPlainName

end SparesForeign

namespace Session

variable {session : Session} {directory : Location}

theorem directory_after (session : Session) (operation : Operation) :
    (session.after operation).tier.config.directory = session.tier.config.directory := by
  cases operation with
  | set key styled =>
      dsimp only [after]
      unfold DiskTier.set
      split
      · rfl
      · rw [config_settle]
  | reopen process named maxEntries maxBytes cleanupEvery => exact directory_getD_openAt _ rfl
  | store key styled => dsimp only [after]
  | get key => dsimp only [after]
  | stats => dsimp only [after]
  | cleanup => dsimp only [after]
  | clear => dsimp only [after]
  | wait clock => dsimp only [after]

/-- An operation spares what is not the tier's. -/
theorem sparesForeign_after
    (located : session.tier.config.directory.locationFrom session.tree.working = directory)
    (plain : HasPlainNames directory session.tree) (operation : Operation) :
    SparesForeign operation.looks directory session.tree (session.after operation).tree := by
  cases operation with
  | store key styled =>
      dsimp only [after]
      exact (keepsForeign_store located key styled).sparesForeign
  | set key styled =>
      have stored := keepsForeign_store located key styled
      dsimp only [after]
      unfold DiskTier.set
      split
      · next stores =>
          rw [stores] at stored
          exact stored.sparesForeign
      · next changed stores =>
          rw [stores] at stored
          have settled : Spares session.tier directory changed (session.tier.settle changed).2 :=
            spares_settle changed
          have spared : SparesForeign false directory session.tree changed :=
            stored.sparesForeign
          have stillPlain := plain.of_sparesForeign spared
          exact
            stored.trans_sparesForeign
              (settled.sparesForeign (stored.working.symm ▸ located) stillPlain)
  | get key =>
      dsimp only [after]
      exact (keepsForeign_get located key).sparesForeign
  | stats =>
      dsimp only [after]
      rw [stats_fst]
      exact (spares_scan _).sparesForeign located plain
  | cleanup =>
      dsimp only [after]
      exact (spares_cleanup _).sparesForeign located plain
  | clear =>
      dsimp only [after]
      exact (spares_clear _).sparesForeign located plain
  | reopen process named maxEntries maxBytes cleanupEvery =>
      dsimp only [after]
      have renumbered : KeepsForeign directory session.tree { session.tree with process, named } :=
        .of_node? rfl fun _ => rfl
      have opened :
          KeepsForeign directory { session.tree with process, named }
            (openAt { session.tree with process, named }
              ⟨session.tier.config.directory, maxEntries, maxBytes, cleanupEvery⟩).1 :=
        keepsForeign_openAt located
      exact (renumbered.trans opened).sparesForeign
  | wait clock =>
      dsimp only [after]
      have waited : KeepsForeign directory session.tree { session.tree with clock } :=
        .of_node? rfl fun _ => rfl
      exact waited.sparesForeign

/-- Whatever is in the directory of a tier and however the tier is used, no file is added or changed
that is not its own, and one is gone only if its name ends like that of a temporary file and it was
older than ten minutes when an operation looked through the directory. -/
theorem foreign_stays_unless_stale
    (plain : HasPlainNames
      (session.tier.config.directory.locationFrom session.tree.working) session.tree)
    (operations : List Operation) {location : Location}
    (foreign : IsForeign
      (session.tier.config.directory.locationFrom session.tree.working) location)
    (file : File) :
    ((session.run operations).tree.node? location = some (.file file) →
        session.tree.node? location = some (.file file)) ∧
      (session.tree.node? location = some (.file file) →
        (session.run operations).tree.node? location = some (.file file) ∨
          ∃ earlier operation later,
            operations = earlier ++ operation :: later ∧ operation.looks = true ∧
              LooksStale (session.tier.config.directory.locationFrom session.tree.working)
                location file (session.run (earlier ++ [operation])).tree.clock) := by
  induction operations generalizing session with
  | nil => exact ⟨id, .inl⟩
  | cons operation operations ih =>
      have spares := sparesForeign_after rfl plain operation
      have located :
          (session.after operation).tier.config.directory.locationFrom
              (session.after operation).tree.working =
            session.tier.config.directory.locationFrom session.tree.working := by
        rw [directory_after, spares.working]
      have stillPlain := plain.of_sparesForeign spares
      have rest := @ih (session.after operation)
      rw [located] at rest
      obtain ⟨was, stays⟩ := rest stillPlain foreign
      refine ⟨fun present => spares.was foreign (was present), fun present => ?_⟩
      rcases spares.stays foreign present with kept | ⟨looks, stale⟩
      · rcases stays kept with stays | ⟨earlier, other, later, split, looks, stale⟩
        · exact .inl stays
        · have parts : operation :: operations = operation :: earlier ++ other :: later := by
            rw [split, List.cons_append]
          exact .inr ⟨operation :: earlier, other, later, parts, looks, stale⟩
      · exact .inr ⟨[], operation, operations, rfl, looks, stale⟩

/-- The sample directory with one file of a user, which was written long ago. -/
def sampleNotes (name : String) : FileTree :=
  sampleFiles [(Text.encode name.toList, ⟨[1], 0, ⟨0⟩⟩)]

/-- Where that file is. -/
def notesLocation (name : String) : Location :=
  [Text.encode "c".toList] ++ [Text.encode name.toList]

theorem hasPlainNames_sampleNotes
    (name : String) (plain : Path.IsPlainName (Text.encode name.toList)) :
    HasPlainNames [Text.encode "c".toList] (sampleNotes name) := by
  intro other file present
  obtain ⟨entry, member, here⟩ := exists_mem_nodes_of_node? (by simp) present
  rcases List.mem_cons.mp member with rfl | member
  · cases here
  · rw [List.map_singleton, List.mem_singleton] at member
    rw [member] at here
    have sameName := List.singleton_inj.mp (List.cons.inj here).2
    rw [← sameName]
    exact plain

theorem isForeign_notesLocation
    {name : String} (length : name.length ≠ 64) (noDot : name.toList.head? ≠ some '.') :
    IsForeign [Text.encode "c".toList] (notesLocation name) :=
  isForeign_of_head?_ne (fun digits => length digits.length) noDot _

/-- Where the sample directory is for a process that starts at the root. -/
theorem locationFrom_sampleTier {tree : FileTree} (atRoot : tree.working = []) :
    sampleTier.config.directory.locationFrom tree.working = [Text.encode "c".toList] := by
  rw [atRoot]
  decide +kernel

/-- Counting the entries and removing them leaves a user's file with another name. -/
theorem foreign_stays_unless_stale_sample :
    (run ⟨sampleTier, sampleNotes "notes.txt", fun _ => none⟩ [.stats, .clear]).tree.node?
        (notesLocation "notes.txt") =
      some (.file ⟨[1], 0, ⟨0⟩⟩) := by
  have spares :=
    @foreign_stays_unless_stale ⟨sampleTier, sampleNotes "notes.txt", fun _ => none⟩
  rw [locationFrom_sampleTier rfl] at spares
  have plain := hasPlainNames_sampleNotes "notes.txt" ⟨by decide, by decide⟩
  have foreign : IsForeign [Text.encode "c".toList] (notesLocation "notes.txt") :=
    isForeign_notesLocation (by decide) (by decide)
  obtain ⟨-, stays⟩ := spares plain [.stats, .clear] foreign ⟨[1], 0, ⟨0⟩⟩
  rcases stays (by decide +kernel) with kept | ⟨_, _, _, _, _, name, here, ends, _⟩
  · exact kept
  · have sameBytes := List.singleton_inj.mp (List.append_cancel_left here)
    obtain rfl : "notes.txt" = name := String.toList_injective (Text.encode_injective sameBytes)
    exact absurd ends (by decide +kernel)

/-- A user's file is gone once the entries were counted, as its name ends like that of a temporary
file. -/
theorem loses_notes_of_stats :
    ¬∀ (session : Session) (operations : List Operation) (location : Location) (file : File),
      HasPlainNames
          (session.tier.config.directory.locationFrom session.tree.working) session.tree →
        IsForeign
            (session.tier.config.directory.locationFrom session.tree.working) location →
          session.tree.node? location = some (.file file) →
            (session.run operations).tree.node? location = some (.file file) := by
  intro keeps
  have stays := keeps ⟨sampleTier, sampleNotes "notes.tmp", fun _ => none⟩ [.stats]
  rw [locationFrom_sampleTier rfl] at stays
  have plain := hasPlainNames_sampleNotes "notes.tmp" ⟨by decide, by decide⟩
  have foreign : IsForeign [Text.encode "c".toList] (notesLocation "notes.tmp") :=
    isForeign_notesLocation (by decide) (by decide)
  have kept := stays _ ⟨[1], 0, ⟨0⟩⟩ plain foreign (by decide +kernel)
  have gone :
      (run ⟨sampleTier, sampleNotes "notes.tmp", fun _ => none⟩ [.stats]).tree.node?
          (notesLocation "notes.tmp") =
        none := by
    decide +kernel
  rw [gone] at kept
  cases kept

end Session

end SourcePreview.DiskTier
