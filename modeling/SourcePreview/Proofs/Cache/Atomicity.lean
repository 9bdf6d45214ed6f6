import SourcePreview.Proofs.Cache.Confinement
import SourcePreview.Proofs.Cache.FiniteMap

/-!
# Writing all or nothing

An entry is written to a temporary file and renamed.  Either the entry is then there as a whole and
nothing else has changed, or everything is as it was.  The same holds for the file that is written
to try out a directory.  The name of a temporary file is made of a name, the number of the process
and how many the process named before, so a process that had the same number may have left a file
of that name behind.  Such a file is lost, and a link of that name leads a write elsewhere.
-/

namespace SourcePreview

namespace FileTree

/-- Whether no file is at a location. -/
def HasNoFile (tree : FileTree) (location : Location) : Prop :=
  ∀ file, tree.node? location ≠ some (.file file)

/-- Nothing is listed for a location where nothing is. -/
theorem fst_ne_of_mem_nodes
    {tree : FileTree} {location : Location} (notRoot : location ≠ [])
    (absent : tree.node? location = none) {entry : Location × Node}
    (member : entry ∈ tree.nodes) :
    entry.1 ≠ location := by
  rw [FileTree.node?, if_neg notRoot, Option.map_eq_none_iff, List.find?_eq_none] at absent
  simpa using absent entry member

/-- Bytes that were written where nothing was can be erased without a trace. -/
theorem erase_putBytes
    {tree : FileTree} {location : Location} (notRoot : location ≠ [])
    (absent : tree.node? location = none) (bytes : Bytes) :
    (tree.putBytes location bytes).erase location = tree.tick := by
  have kept : (tree.nodes.filter fun entry => entry.1 != location) = tree.nodes := by
    rw [List.filter_eq_self]
    intro entry member
    simpa using fst_ne_of_mem_nodes notRoot absent member
  simp [putBytes, put, erase, tick, kept]

/-- What was written where no file was can be erased without a trace. -/
theorem erase_of_writeFile
    {tree written : FileTree} {path : Path} {bytes : Bytes}
    (writes : tree.writeFile path bytes = .ok written)
    (notRoot : path.locationFrom tree.working ≠ [])
    (unused : tree.HasNoFile (path.locationFrom tree.working)) :
    written.erase (path.locationFrom tree.working) = tree.tick := by
  obtain ⟨rfl, noDirectory⟩ := eq_putBytes_of_writeFile writes
  refine erase_putBytes notRoot ?_ bytes
  cases present : tree.node? (path.locationFrom tree.working) with
  | none => rfl
  | some node =>
      cases node with
      | directory => exact absurd present noDirectory
      | file file => exact absurd present (unused file)

/-- A directory that is there need not be made. -/
theorem createDirectories_of_isDirectory
    {tree : FileTree} {path : Path}
    (isThere : path.bytes = [] ∨ tree.nodeAt path = .ok .directory) :
    tree.createDirectories path = (tree, .ok ()) := by
  rw [createDirectories, createChain]
  split
  · rfl
  · next nonempty =>
      have isDirectory := isThere.resolve_left (by simpa using nonempty)
      have ensured : tree.ensureDirectory path = .ok tree := by
        have notMade : ∃ failure, tree.createDirectory path = .error failure := by
          rw [createDirectory]
          cases walked : tree.place path with
          | error failure => exact ⟨failure, rfl⟩
          | ok place =>
              cases place with
              | directory location => exact ⟨_, rfl⟩
              | entry parent name slashed =>
                  have present := node?_of_nodeAt isDirectory
                  rw [← location_of_place walked, Place.location] at present
                  simp only [bind, Except.bind, present]
                  exact ⟨_, rfl⟩
        obtain ⟨failure, notMade⟩ := notMade
        rw [ensureDirectory, notMade, FileTree.isDirectory, isDirectory]
        rfl
      rw [ensured]
      rfl

end FileTree

namespace FileSystem

open FileTree

/-- Whether a name is unused and a file that is made there can be removed again. -/
structure IsUnused (system : FileSystem) (location : Location) : Prop where
  noLink : system.link? location = none
  noFile : system.tree.HasNoFile location
  notFixed : system.fixed? location = none

/-- Whether a change has left everything as it was, up to what is at one location and what a link
there leads to.  If the name was unused, nothing but the clock and the count of names has changed,
so that all directories are listed as before. -/
structure LeavesAllBut (location : Location) (before after : FileSystem) : Prop where
  keeps : KeepsRights before after
  node? : ∀ other, other ≠ location → other ≠ before.behind location →
    after.tree.node? other = before.tree.node? other
  link? : ∀ other, other ≠ location → after.link? other = before.link? other
  all :
    before.IsUnused location →
      after =
        { before with
          tree :=
            { before.tree with named := after.tree.named, clock := after.tree.clock } }

theorem LeavesAllBut.of_countName
    {system after : FileSystem} {location : Location}
    (leaves : LeavesAllBut location system.countName after) :
    LeavesAllBut location system after where
  keeps := ⟨leaves.keeps.working, leaves.keeps.rights⟩
  node? := leaves.node?
  link? := leaves.link?
  all unused := leaves.all ⟨unused.noLink, unused.noFile, unused.notFixed⟩

/-- Taking a name away after a change of the file there, or leaving it, is no change elsewhere. -/
theorem frame_discard
    {before written : FileSystem} (path : Path) (keeps : KeepsRights before written)
    (node? : ∀ other,
      other ≠ before.behind (path.locationFrom before.tree.working) →
        written.tree.node? other = before.tree.node? other)
    (links : written.link? = before.link?) :
    KeepsRights before (written.discard path) ∧
      (∀ other, other ≠ path.locationFrom before.tree.working →
        other ≠ before.behind (path.locationFrom before.tree.working) →
          (written.discard path).tree.node? other = before.tree.node? other) ∧
      ∀ other, other ≠ path.locationFrom before.tree.working →
        (written.discard path).link? other = before.link? other := by
  rcases discard_eq_or_eq_without written path with same | without
  · rw [same, links]
    exact ⟨keeps, fun other _ => node? other, fun _ _ => rfl⟩
  · rw [without, keeps.working]
    refine ⟨keeps.trans ⟨rfl, rfl⟩, fun other elsewhere notBehind => ?_, fun other elsewhere => ?_⟩
    · rw [node?_without written elsewhere, node? other notBehind]
    · exact (linksWithout_of_ne elsewhere).trans (congrFun links other)

/-- What is not there cannot be discarded. -/
theorem discard_of_isUnused
    {system : FileSystem} {path : Path}
    (unused : system.IsUnused (path.locationFrom system.tree.working)) :
    system.discard path = system := by
  unfold discard
  cases removes : system.removeFile path with
  | error reason => rfl
  | ok removed =>
      obtain ⟨file, present⟩ := (of_removeFile removes).1 unused.noLink
      exact absurd present (unused.noFile file)

section Replaced

variable
    {system written after : FileSystem} {path target : Path} {bytes : Bytes}
    (writes : system.writeFile path bytes = (written, .ok ()))
    (renames : written.renameFile path target = .ok after)

include writes renames

/-- A file that was written and renamed has just its bytes, unless it was written behind a link. -/
theorem node?_of_replaced
    (noLink : system.link? (path.locationFrom system.tree.working) = none)
    (notRoot : target.locationFrom system.tree.working ≠ []) :
    after.tree.node? (target.locationFrom system.tree.working) =
        some (.file ⟨bytes, 0, after.tree.clock⟩) ∧
      after.link? (target.locationFrom system.tree.working) = none := by
  rcases writeFile_cases system path bytes with
    ⟨_, fails⟩ | ⟨goal, part, changed, _, _, same, wrote, succeeds, complete⟩
  · cases fails.symm.trans writes
  · cases succeeds.symm.trans writes
    obtain rfl := complete rfl
    obtain rfl := same noLink
    have working : changed.working = system.tree.working := (edits_of_writeFile wrote).working
    rcases of_renameFile renames with ⟨_, renamed, moves, rfl⟩ | ⟨_, linked, _⟩
    · obtain ⟨file, _, moved, _, _, rfl⟩ := eq_put_of_renameFile moves
      dsimp only at moved ⊢
      rw [working] at moved ⊢
      rw [node?_put _ _ _ notRoot, if_pos rfl, eq_of_writeFile wrote moved]
      exact ⟨rfl, if_pos rfl⟩
    · dsimp only at linked
      rw [working, noLink] at linked
      cases linked

/-- Writing a file and renaming it leaves nothing at its first name and changes nothing else. -/
theorem frame_of_replaced
    (distinct :
      path.locationFrom system.tree.working ≠ target.locationFrom system.tree.working)
    (notRoot : path.locationFrom system.tree.working ≠ []) :
    KeepsRights system after ∧
      after.tree.node? (path.locationFrom system.tree.working) = none ∧
      after.link? (path.locationFrom system.tree.working) = none ∧
      ∀ other, other ≠ path.locationFrom system.tree.working →
        other ≠ target.locationFrom system.tree.working →
          (other ≠ system.behind (path.locationFrom system.tree.working) →
            after.tree.node? other = system.tree.node? other) ∧
          after.link? other = system.link? other := by
  rcases writeFile_cases system path bytes with
    ⟨_, fails⟩ | ⟨goal, part, changed, _, location, _, wrote, succeeds, _⟩
  · cases fails.symm.trans writes
  · cases succeeds.symm.trans writes
    have working : changed.working = system.tree.working := (edits_of_writeFile wrote).working
    have frame := frame_of_renameFile renames
    dsimp only at frame
    rw [working] at frame
    obtain ⟨keeps, gone, unlinked, others⟩ := frame distinct notRoot
    refine ⟨.trans ⟨working, rfl⟩ keeps, gone, unlinked, fun other notPath notTarget => ?_⟩
    obtain ⟨sameNode, sameLink⟩ := others other notPath notTarget
    refine ⟨fun notBehind => ?_, sameLink⟩
    rw [sameNode, (eq_putBytes_of_writeFile wrote).1, location, putBytes,
      node?_put_of_ne _ _ notBehind, node?_tick]

end Replaced

/-- A file that is written, perhaps in part, and discarded leaves no trace. -/
theorem leavesAllBut_discard_of_writeFile
    {system written : FileSystem} {path : Path} {bytes : Bytes} {result : Except SystemError Unit}
    (notRoot : path.locationFrom system.tree.working ≠ [])
    (writes : system.writeFile path bytes = (written, result)) :
    LeavesAllBut (path.locationFrom system.tree.working) system (written.discard path) := by
  rcases writeFile_cases system path bytes with
    ⟨_, fails⟩ | ⟨target, part, changed, _, location, same, wrote, succeeds, _⟩
  · cases fails.symm.trans writes
    obtain ⟨keeps, nodes, links⟩ :=
      frame_discard path (.refl system) (fun _ _ => rfl) rfl
    exact ⟨keeps, nodes, links, fun unused => by rw [discard_of_isUnused unused]⟩
  · cases succeeds.symm.trans writes
    have put := (eq_putBytes_of_writeFile wrote).1
    rw [location] at put
    obtain ⟨keeps, nodes, links⟩ :=
      @frame_discard system { system with tree := changed } path
        ⟨(edits_of_writeFile wrote).working, rfl⟩
        (fun other elsewhere => by
          rw [put, putBytes, node?_put_of_ne _ _ elsewhere, node?_tick])
        rfl
    refine ⟨keeps, nodes, links, fun unused => ?_⟩
    obtain rfl := same unused.noLink
    have working := (edits_of_writeFile wrote).working
    have removes :=
      @removeFile_of_tree { system with tree := changed } target _ (removeFile_of_writeFile wrote)
        (working ▸ unused.noLink) (working ▸ unused.notFixed)
    rw [discard, removes, erase_of_writeFile wrote notRoot unused.noFile]
    rfl

end FileSystem

namespace DiskTier

open FileTree FileSystem

/-- Where the temporary file is that is made for a name at this moment. -/
def temporaryLocation (tree : FileTree) (directory : Path) (name : String) : Location :=
  directory.locationFrom tree.working ++ [Text.encode (temporaryName tree name).toList]

theorem locationFrom_temporary
    (tree : FileTree) (directory : Path) {name : String}
    (allowed : ∀ character ∈ name.toList, IsTemporaryCharacter character) :
    (directory.child (temporaryName tree name)).locationFrom tree.working =
      temporaryLocation tree directory name :=
  Path.locationFrom_child _ _ (isPlainName_temporaryName tree allowed)

theorem temporaryLocation_ne_nil (tree : FileTree) (directory : Path) (name : String) :
    temporaryLocation tree directory name ≠ [] := by
  simp [temporaryLocation]

section Temporary

variable
    {system : FileSystem} {directory : Path} {name : String}
    (allowed : ∀ character ∈ name.toList, IsTemporaryCharacter character)

include allowed

/-- An attempt at a temporary file leaves no trace once the file is discarded. -/
theorem leavesAllBut_discard_temporary
    {written : FileSystem} {bytes : Bytes} {result : Except SystemError Unit}
    (writes :
      system.countName.writeFile (directory.child (temporaryName system.tree name)) bytes =
        (written, result)) :
    LeavesAllBut (temporaryLocation system.tree directory name) system
      (written.discard (directory.child (temporaryName system.tree name))) := by
  have location := locationFrom_temporary system.tree directory allowed
  have leaves :=
    leavesAllBut_discard_of_writeFile
      (location ▸ temporaryLocation_ne_nil system.tree directory name) writes
  change LeavesAllBut ((directory.child _).locationFrom system.tree.working) _ _ at leaves
  rw [location] at leaves
  exact leaves.of_countName

/-- An attempt to replace a file that fails leaves no trace. -/
theorem leavesAllBut_of_replaceFile_eq_error
    {after : FileSystem} {path : Path} {bytes : Bytes} {failure : SystemError}
    (fails :
      replaceFile system.countName (directory.child (temporaryName system.tree name)) path bytes =
        (after, .error failure)) :
    LeavesAllBut (temporaryLocation system.tree directory name) system after := by
  unfold replaceFile at fails
  split at fails
  · next written reason writes =>
      cases fails
      exact leavesAllBut_discard_temporary allowed writes
  · next written writes =>
      split at fails
      · cases fails
      · cases fails
        exact leavesAllBut_discard_temporary allowed writes

end Temporary

/-- Trying out a directory leaves no trace. -/
theorem leavesAllBut_probe (system : FileSystem) (directory : Path) :
    LeavesAllBut (temporaryLocation system.tree directory "probe") system
      (probe system directory).1 := by
  have allowed := isTemporaryCharacter_of_mem_probe
  unfold probe
  dsimp only
  split
  · next writes =>
      dsimp only
      exact leavesAllBut_discard_temporary allowed writes
  · next written writes =>
      have leaves := leavesAllBut_discard_temporary allowed writes
      split
      · next removed removes =>
          rw [FileSystem.discard, removes] at leaves
          exact leaves
      · dsimp only
        exact leaves

/-- Opening the tier in a directory that is there leaves no trace. -/
theorem leavesAllBut_openIn
    {system : FileSystem} {config : DiskConfig}
    (isThere :
      config.directory.bytes = [] ∨ system.tree.nodeAt config.directory = .ok .directory) :
    LeavesAllBut (temporaryLocation system.tree config.directory "probe") system
      (openIn system config).1 := by
  have tried := leavesAllBut_probe system config.directory
  rw [openIn, createDirectories_of_isDirectory isThere]
  dsimp only
  split
  all_goals
    next tries =>
      rw [tries] at tried
      exact tried

/-- Whether nothing but the entry of a key has changed, once its temporary file is gone.  Unless
there was a link of the name of the temporary file, the entry is a file with just the bytes of a
preview. -/
structure HasStored
    (tier : DiskTier) (before after : FileSystem) (key : Key) (styled : StyledText) : Prop where
  keeps : KeepsRights before after
  entry :
    before.link? (temporaryLocation before.tree tier.config.directory key.name) = none →
      after.tree.node?
            (tier.config.directory.locationFrom before.tree.working ++ [key.fileName]) =
          some (.file ⟨Entry.encode styled, 0, after.tree.clock⟩) ∧
        after.link?
            (tier.config.directory.locationFrom before.tree.working ++ [key.fileName]) =
          none
  temporary :
    after.tree.node? (temporaryLocation before.tree tier.config.directory key.name) = none ∧
      after.link? (temporaryLocation before.tree tier.config.directory key.name) = none
  node? : ∀ location,
    location ≠ tier.config.directory.locationFrom before.tree.working ++ [key.fileName] →
      location ≠ temporaryLocation before.tree tier.config.directory key.name →
        location ≠
            before.behind (temporaryLocation before.tree tier.config.directory key.name) →
          after.tree.node? location = before.tree.node? location
  link? : ∀ location,
    location ≠ tier.config.directory.locationFrom before.tree.working ++ [key.fileName] →
      location ≠ temporaryLocation before.tree tier.config.directory key.name →
        after.link? location = before.link? location

section Stored

variable
    {tier : DiskTier} {system after : FileSystem} {key : Key} {styled : StyledText}
    (stores : tier.storeIn system key styled = (after, .ok ()))

include stores

/-- Storing succeeds by writing the temporary file and renaming it. -/
theorem exists_of_storeIn_eq_ok :
    ∃ written,
      system.countName.writeFile
          (tier.config.directory.child (temporaryName system.tree key.name))
          (Entry.encode styled) =
        (written, .ok ()) ∧
      written.renameFile
          (tier.config.directory.child (temporaryName system.tree key.name))
          (tier.config.directory.child key.name) =
        .ok after := by
  unfold storeIn replaceFile at stores
  dsimp only at stores
  split at stores
  · next changed replaces =>
      cases stores
      split at replaces
      · cases replaces
      · next written writes =>
          split at replaces
          · next renames =>
              cases replaces
              exact ⟨written, writes, renames⟩
          · cases replaces
  · cases stores

theorem hasStored_of_storeIn : tier.HasStored system after key styled := by
  obtain ⟨written, writes, renames⟩ := exists_of_storeIn_eq_ok stores
  have allowed := fun character => @isTemporaryCharacter_of_mem_name key character
  have temporary := locationFrom_temporary system.tree tier.config.directory allowed
  have entry := @locationFrom_entry tier system.tree _ rfl key
  have distinct :
      temporaryLocation system.tree tier.config.directory key.name ≠
        tier.config.directory.locationFrom system.tree.working ++ [key.fileName] :=
    append_temporary_ne (endsWith_temporaryName system.tree key.name) key
  have placed := node?_of_replaced writes renames
  have frame := frame_of_replaced writes renames
  dsimp only [FileSystem.countName] at placed frame
  rw [working_countName, temporary, entry] at placed frame
  obtain ⟨keeps, gone, unlinked, others⟩ :=
    frame distinct (temporaryLocation_ne_nil system.tree tier.config.directory key.name)
  exact
    { keeps := ⟨keeps.working, keeps.rights⟩
      entry := fun noLink => placed noLink (append_fileName_ne_nil _ key)
      temporary := ⟨gone, unlinked⟩
      node? := fun other notEntry notTemporary => (others other notTemporary notEntry).1
      link? := fun other notEntry notTemporary => (others other notTemporary notEntry).2 }

end Stored

/-- Storing that fails says so of the entry and leaves no trace. -/
theorem leavesAllBut_of_storeIn_eq_error
    {tier : DiskTier} {system after : FileSystem} {key : Key} {styled : StyledText}
    {failure : CacheError} (fails : tier.storeIn system key styled = (after, .error failure)) :
    (∃ reason, failure = .file (tier.config.directory.child key.name) reason) ∧
      LeavesAllBut (temporaryLocation system.tree tier.config.directory key.name) system after := by
  unfold storeIn at fails
  dsimp only at fails
  split at fails
  · cases fails
  · next reason replaces =>
      cases fails
      have allowed := fun character => @isTemporaryCharacter_of_mem_name key character
      exact ⟨⟨reason, rfl⟩, leavesAllBut_of_replaceFile_eq_error allowed replaces⟩

/-- Whether a temporary file can be written and given the name of an entry, as far as links, rights
and what comes in between are concerned. -/
structure Permits (system : FileSystem) (temporary entry : Location) : Prop where
  noLink : system.link? temporary = none
  writable : system.unwritable? temporary = none
  whole : system.interrupted? temporary = none
  movable : system.fixed? temporary = none
  replaceable : system.fixed? entry = none

/-- Storing succeeds where there is room and nothing is refused. -/
theorem exists_storeIn_eq_ok
    {tier : DiskTier} {system : FileSystem} {key : Key}
    (isDirectory : system.tree.nodeAt tier.config.directory = .ok .directory)
    (room :
      tier.HasRoom system.tree (tier.config.directory.locationFrom system.tree.working) key)
    (permits :
      Permits system (temporaryLocation system.tree tier.config.directory key.name)
        (tier.config.directory.locationFrom system.tree.working ++ [key.fileName]))
    (styled : StyledText) :
    ∃ after, tier.storeIn system key styled = (after, .ok ()) := by
  obtain ⟨stored, stores⟩ := exists_store_eq_ok_of_hasRoom rfl isDirectory room styled
  obtain ⟨written, writes, renames⟩ := exists_of_store_eq_ok stores
  have allowed := fun character => @isTemporaryCharacter_of_mem_name key character
  obtain ⟨noLink, writable, whole, movable, replaceable⟩ := permits
  rw [← locationFrom_temporary system.tree tier.config.directory allowed] at noLink writable whole
  rw [← locationFrom_temporary system.tree tier.config.directory allowed] at movable
  rw [← locationFrom_entry rfl key] at replaceable
  have working : written.working = system.tree.working := (edits_of_writeFile writes).working
  have wrote := @writeFile_of_tree system.countName _ _ _ writes noLink writable whole
  have renamed :=
    @renameFile_of_tree { system.countName with tree := written } _ _ _ renames
      (working ▸ noLink) (working ▸ movable) (working ▸ replaceable)
  unfold storeIn replaceFile
  dsimp only
  rw [wrote]
  dsimp only
  rw [renamed]
  exact ⟨_, rfl⟩

/-- Storing does all or nothing, whatever is in the directory and whatever the system refuses or
interrupts, up to what has the name of the temporary file already.  If it succeeds, the entry of the
key is a file with just the bytes of the preview and nothing else has changed.  If it fails, it says
so of the entry and leaves everything as it was.  It succeeds where there is room and nothing is
refused.  Opening the tier in a directory that its path leads to leaves everything as it was. -/
theorem storeIn_and_openIn_leavesAllBut :
    (∀ (tier : DiskTier) system key styled after,
      tier.storeIn system key styled = (after, .ok ()) →
        tier.HasStored system after key styled) ∧
    (∀ (tier : DiskTier) system key styled after failure,
      tier.storeIn system key styled = (after, .error failure) →
        (∃ reason, failure = .file (tier.config.directory.child key.name) reason) ∧
          LeavesAllBut (temporaryLocation system.tree tier.config.directory key.name) system
            after) ∧
    (∀ (tier : DiskTier) (system : FileSystem) key styled,
      system.tree.nodeAt tier.config.directory = .ok .directory →
        tier.HasRoom system.tree (tier.config.directory.locationFrom system.tree.working) key →
          Permits system (temporaryLocation system.tree tier.config.directory key.name)
              (tier.config.directory.locationFrom system.tree.working ++ [key.fileName]) →
            ∃ after, tier.storeIn system key styled = (after, .ok ())) ∧
    ∀ (system : FileSystem) (config : DiskConfig),
      config.directory.bytes = [] ∨ system.tree.nodeAt config.directory = .ok .directory →
        LeavesAllBut (temporaryLocation system.tree config.directory "probe") system
          (openIn system config).1 := by
  refine ⟨?stored, ?failed, ?room, ?opened⟩
  case stored =>
    intro tier system key styled after stores
    exact hasStored_of_storeIn stores
  case failed =>
    intro tier system key styled after failure fails
    exact leavesAllBut_of_storeIn_eq_error fails
  case room =>
    intro tier system key styled isDirectory room permits
    exact exists_storeIn_eq_ok isDirectory room permits styled
  case opened =>
    intro system config isThere
    exact leavesAllBut_openIn isThere

namespace Session

/-- A directory for previews in which the place of one entry is taken by a directory. -/
def sampleTaken : FileTree :=
  sampleTree.put [Text.encode "c".toList, (sampleKey 0).fileName] .directory

/-- Where the first temporary file of a process is that is made for a name. -/
def sampleTemporary (name : String) : Location :=
  temporaryLocation sampleTree sampleTier.config.directory name

/-- A directory for previews on a disk that has no space for more than three bytes. -/
def sampleFull : FileSystem :=
  { FileSystem.plain sampleTree with interrupted? := fun _ => some ⟨3, .noSpace⟩ }

/-- One of two previews is stored.  The other one leaves everything as it was, and so does one for
which there is no space, and so does the tier when it is opened. -/
theorem storeIn_and_openIn_leavesAllBut_sample :
    (∃ after,
      sampleTier.storeIn (.plain sampleTaken) (sampleKey 1) (sampleStyled "1") =
          (after, .ok ()) ∧
        sampleTier.HasStored (.plain sampleTaken) after (sampleKey 1) (sampleStyled "1")) ∧
    (∃ after failure,
      sampleTier.storeIn (.plain sampleTaken) (sampleKey 0) (sampleStyled "1") =
          (after, .error failure) ∧
        after = .plain { sampleTaken with named := after.tree.named, clock := after.tree.clock }) ∧
    (∃ after failure,
      sampleTier.storeIn sampleFull (sampleKey 0) (sampleStyled "1") =
          (after, .error failure) ∧
        after =
          { sampleFull with
            tree :=
              { sampleTree with named := after.tree.named, clock := after.tree.clock } }) ∧
    ∃ opened,
      (openIn (.plain sampleTaken) sampleTier.config).1 = opened ∧
        opened =
          .plain
            { sampleTaken with named := opened.tree.named, clock := opened.tree.clock } := by
  obtain ⟨stored, failed, room, opened⟩ := storeIn_and_openIn_leavesAllBut
  have noFile (tree : FileTree) (isSample : tree ∈ [sampleTaken, sampleTree])
      (name : String) (isName : name ∈ ["probe", (sampleKey 0).name]) :
      tree.HasNoFile (temporaryLocation tree sampleTier.config.directory name) := by
    have absent :
        ∀ tree ∈ [sampleTaken, sampleTree], ∀ name ∈ ["probe", (sampleKey 0).name],
          tree.node? (temporaryLocation tree sampleTier.config.directory name) = none := by
      simp only [List.forall_mem_cons]
      decide +kernel
    intro file present
    rw [absent tree isSample name isName] at present
    cases present
  have fails {system : FileSystem}
      (broken : (sampleTier.storeIn system (sampleKey 0) (sampleStyled "1")).2.toBool = false)
      (unused :
        system.IsUnused
          (temporaryLocation system.tree sampleTier.config.directory (sampleKey 0).name)) :
      ∃ after failure,
        sampleTier.storeIn system (sampleKey 0) (sampleStyled "1") = (after, .error failure) ∧
          after =
            { system with
              tree :=
                { system.tree with
                  named := after.tree.named
                  clock := after.tree.clock } } := by
    cases stores : sampleTier.storeIn system (sampleKey 0) (sampleStyled "1") with
    | mk after result =>
        rw [stores] at broken
        cases result with
        | ok _ => cases broken
        | error failure =>
            obtain ⟨_, leaves⟩ := failed _ _ _ _ _ _ stores
            exact ⟨after, failure, rfl, leaves.all unused⟩
  refine ⟨?stored, ?failed, ?interrupted, ?opened⟩
  case stored =>
    obtain ⟨after, stores⟩ :=
      room sampleTier (.plain sampleTaken) (sampleKey 1) (sampleStyled "1") rfl
        ⟨by decide +kernel, by decide +kernel, by decide +kernel, by decide +kernel⟩
        ⟨rfl, rfl, rfl, rfl, rfl⟩
    exact ⟨after, stores, stored _ _ _ _ _ stores⟩
  case failed =>
    exact fails (by decide +kernel) ⟨rfl, noFile _ (by simp) _ (by simp), rfl⟩
  case interrupted =>
    exact fails (by decide +kernel) ⟨rfl, noFile sampleTree (by simp) _ (by simp), rfl⟩
  case opened =>
    refine ⟨_, rfl, (opened (.plain sampleTaken) sampleTier.config (Or.inr rfl)).all ?_⟩
    exact ⟨rfl, noFile _ (by simp) _ (by simp), rfl⟩

/-- A file that another process with the same number left behind. -/
def sampleLeft : Node :=
  .file ⟨[1], 0, ⟨0⟩⟩

/-- Where the file of a user is that a link leads to. -/
def sampleUserFile : Location :=
  [Text.encode "notes".toList]

/-- A link in the place of the first temporary file for an entry.  It leads to a file of a user. -/
def sampleLinked : FileSystem :=
  { FileSystem.plain (sampleTree.put sampleUserFile sampleLeft) with
    link? := fun location =>
      if location = sampleTemporary (sampleKey 0).name then some (.ofString "/notes") else none }

/-- A directory in which files can be made but neither renamed nor removed. -/
def sampleAppendOnly : FileSystem :=
  { FileSystem.plain sampleTree with fixed? := fun _ => some .notPermitted }

/-- A file that has the name of the temporary file already is lost when a preview is stored and when
it is not, and when the tier is opened.  A link of that name leads the preview into another file.
Where nothing can be removed, the temporary file stays after a failure.  A path that leads to a
directory through a missing one adds that one. -/
theorem loses_leftovers_of_storeIn_and_openIn :
    (∃ system, system = .plain (sampleTree.put (sampleTemporary (sampleKey 0).name) sampleLeft) ∧
      (sampleTier.storeIn system (sampleKey 0) (sampleStyled "1")).2 = .ok () ∧
      (sampleTier.storeIn system (sampleKey 0) (sampleStyled "1")).1.tree.node?
          (sampleTemporary (sampleKey 0).name) = none) ∧
    (∃ system, system = .plain (sampleTaken.put (sampleTemporary (sampleKey 0).name) sampleLeft) ∧
      (sampleTier.storeIn system (sampleKey 0) (sampleStyled "1")).2.toBool = false ∧
      (sampleTier.storeIn system (sampleKey 0) (sampleStyled "1")).1.tree.node?
          (sampleTemporary (sampleKey 0).name) = none) ∧
    (∃ system, system = .plain (sampleTree.put (sampleTemporary "probe") sampleLeft) ∧
      (openIn system sampleTier.config).2 = .ok sampleTier ∧
      (openIn system sampleTier.config).1.tree.node? (sampleTemporary "probe") = none) ∧
    ((sampleTier.storeIn sampleLinked (sampleKey 0) (sampleStyled "1")).2 = .ok () ∧
      sampleLinked.tree.node? sampleUserFile = some sampleLeft ∧
      (sampleTier.storeIn sampleLinked (sampleKey 0) (sampleStyled "1")).1.tree.node?
          sampleUserFile ≠ some sampleLeft) ∧
    ((sampleTier.storeIn sampleAppendOnly (sampleKey 0) (sampleStyled "1")).2.toBool = false ∧
      sampleTree.node? (sampleTemporary (sampleKey 0).name) = none ∧
      (sampleTier.storeIn sampleAppendOnly (sampleKey 0) (sampleStyled "1")).1.tree.node?
          (sampleTemporary (sampleKey 0).name) ≠ none) ∧
    ∃ config, config = .standard (.ofString "c/b/..") ∧
      (openIn (.plain sampleTree) config).2 = .ok ⟨config, 0⟩ ∧
      sampleTree.childNames [Text.encode "c".toList] = [] ∧
      (openIn (.plain sampleTree) config).1.tree.childNames [Text.encode "c".toList] =
        [Text.encode "b".toList] := by
  refine ⟨⟨_, rfl, ?stored⟩, ⟨_, rfl, ?failed⟩, ⟨_, rfl, ?opened⟩, ?linked, ?kept, _, rfl, ?detour⟩
  all_goals decide +kernel

end Session

end DiskTier

end SourcePreview
