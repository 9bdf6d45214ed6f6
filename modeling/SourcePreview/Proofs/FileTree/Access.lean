import SourcePreview.FileTree.Access
import SourcePreview.Proofs.FileTree.Edits

/-!
# Files of a file system

Without links and with all rights a file system does what its tree does.  Where there is a link, a
file is written behind it, and the link itself is what is removed or renamed.  Nothing that happens
to files changes the rights.
-/

namespace SourcePreview.FileSystem

open FileTree

section Plain

variable (tree : FileTree) (path : Path)

@[simp]
theorem tree_plain : (plain tree).tree = tree := rfl

@[simp]
theorem countName_plain : (plain tree).countName = plain tree.countName := rfl

@[simp]
theorem fileAt_plain : (plain tree).fileAt path = tree.fileAt path := by
  cases walked : tree.place path with
  | error failure =>
      simp [fileAt, follow, plain, walked, FileTree.fileAt, FileTree.nodeAt, bind, Except.bind]
  | ok place => simp [fileAt, follow, plain, walked, refuse, bind, Except.bind, pure, Except.pure]

@[simp]
theorem touch_plain : (plain tree).touch path = (tree.touch path).map plain := by
  have sameWalk : tree.tick.place path = tree.place path := rfl
  cases walked : tree.place path with
  | error failure =>
      simp [touch, follow, plain, walked, sameWalk, FileTree.touch, FileTree.setModified,
        FileTree.fileAt, FileTree.nodeAt, bind, Except.bind, Except.map]
  | ok place =>
      cases touches : tree.touch path <;>
        simp [touch, follow, plain, walked, touches, refuse, bind, Except.bind, pure, Except.pure,
          Except.map]

@[simp]
theorem writeFile_plain (bytes : Bytes) :
    (plain tree).writeFile path bytes =
      match tree.writeFile path bytes with
      | .ok written => (plain written, .ok ())
      | .error reason => (plain tree, .error reason) := by
  cases walked : tree.place path with
  | error failure =>
      simp [writeFile, prepareWrite, follow, plain, walked, FileTree.writeFile, bind, Except.bind]
  | ok place =>
      cases writes : tree.writeFile path bytes <;>
        simp [writeFile, prepareWrite, follow, plain, walked, writes, refuse, bind, Except.bind,
          pure, Except.pure]

@[simp]
theorem linksWithout_plain (location : Location) :
    (plain tree).linksWithout location = fun _ => none := by
  funext other
  simp [linksWithout, plain]

@[simp]
theorem removeFile_plain : (plain tree).removeFile path = (tree.removeFile path).map plain := by
  cases walked : tree.place path with
  | error failure =>
      simp [removeFile, plain, walked, FileTree.removeFile, FileTree.nodeAt, bind, Except.bind,
        Except.map]
  | ok place =>
      cases removes : tree.removeFile path <;>
        simp [removeFile, plain, walked, removes, refuse, bind, Except.bind, pure, Except.pure,
          Except.map]

@[simp]
theorem renameFile_plain (target : Path) :
    (plain tree).renameFile path target = (tree.renameFile path target).map plain := by
  cases walked : tree.place path with
  | error failure =>
      simp [renameFile, plain, walked, FileTree.renameFile, FileTree.fileAt, FileTree.nodeAt, bind,
        Except.bind, Except.map]
  | ok place =>
      cases renames : tree.renameFile path target with
      | error failure =>
          simp [renameFile, plain, walked, renames, refuse, bind, Except.bind, Except.map]
      | ok renamed =>
          obtain ⟨_, goal, _, reached, _, _⟩ := eq_put_of_renameFile renames
          have noLinks := linksWithout_plain tree goal.location
          unfold plain at noLinks
          simp [renameFile, plain, walked, renames, reached, noLinks, refuse, bind, Except.bind,
            pure, Except.pure, Except.map]

end Plain

/-- Where the file at a location is written: behind the link that is there, if there is one. -/
def behind (system : FileSystem) (location : Location) : Location :=
  match system.link? location with
  | some path => path.locationFrom system.tree.working
  | none => location

/-- The file system without the file or the link at a location. -/
def without (system : FileSystem) (location : Location) : FileSystem :=
  { system with tree := system.tree.erase location, link? := system.linksWithout location }

theorem node?_without
    (system : FileSystem) {location other : Location} (elsewhere : other ≠ location) :
    (system.without location).tree.node? other = system.tree.node? other :=
  node?_erase_of_ne system.tree elsewhere

theorem linksWithout_of_none
    {system : FileSystem} {location : Location} (noLink : system.link? location = none) :
    system.linksWithout location = system.link? := by
  funext other
  unfold linksWithout
  split
  · next here => rw [here, noLink]
  · rfl

theorem linksWithout_of_ne
    {system : FileSystem} {location other : Location} (elsewhere : other ≠ location) :
    system.linksWithout location other = system.link? other :=
  if_neg elsewhere

/-- Whether a change has left everything but files and links as it was. -/
structure KeepsRights (before after : FileSystem) : Prop where
  working : after.tree.working = before.tree.working
  rights : after = { before with tree := after.tree, link? := after.link? }

namespace KeepsRights

theorem refl (system : FileSystem) : KeepsRights system system :=
  ⟨rfl, rfl⟩

theorem trans
    {first second third : FileSystem}
    (earlier : KeepsRights first second) (later : KeepsRights second third) :
    KeepsRights first third := by
  refine ⟨later.working.trans earlier.working, ?_⟩
  rw [later.rights, earlier.rights]

end KeepsRights

section Operations

variable {system changed : FileSystem} {path : Path}

theorem refuse_eq_ok_iff {reason : Option SystemError} :
    refuse reason = .ok () ↔ reason = none := by
  cases reason with
  | none => exact ⟨fun _ => rfl, fun _ => rfl⟩
  | some reason => exact ⟨nofun, nofun⟩

/-- Only a file or a link can be removed, which takes its name away. -/
theorem of_removeFile (removes : system.removeFile path = .ok changed) :
    (system.link? (path.locationFrom system.tree.working) = none →
        ∃ file,
          system.tree.node? (path.locationFrom system.tree.working) = some (.file file)) ∧
      changed = system.without (path.locationFrom system.tree.working) := by
  unfold removeFile at removes
  obtain ⟨place, walked, removes⟩ := bind_eq_ok_iff.mp removes
  obtain ⟨_, _, removes⟩ := bind_eq_ok_iff.mp removes
  rw [← location_of_place walked]
  split at removes
  · next linked =>
      cases removes
      exact ⟨fun noLink => (nomatch linked.symm.trans noLink), rfl⟩
  · next noLink =>
      obtain ⟨removed, succeeds, removes⟩ := bind_eq_ok_iff.mp removes
      cases removes
      obtain ⟨rfl, present⟩ := eq_erase_of_removeFile succeeds
      rw [← location_of_place walked] at present ⊢
      rw [without, linksWithout_of_none noLink]
      exact ⟨fun _ => present, rfl⟩

/-- A file that can be removed from the tree is removed, unless the name is a link or fixed. -/
theorem removeFile_of_tree
    {removed : FileTree} (removes : system.tree.removeFile path = .ok removed)
    (noLink : system.link? (path.locationFrom system.tree.working) = none)
    (notFixed : system.fixed? (path.locationFrom system.tree.working) = none) :
    system.removeFile path = .ok { system with tree := removed } := by
  obtain ⟨file, reads⟩ := exists_fileAt_of_removeFile removes
  obtain ⟨place, walked⟩ := exists_place_of_nodeAt (fileAt_eq_ok_iff.mp reads)
  rw [← location_of_place walked] at noLink notFixed
  rw [removeFile, walked]
  simp only [bind, Except.bind, notFixed, noLink, refuse, removes]
  rfl

/-- What is discarded is taken away, if it can be. -/
theorem discard_eq_or_eq_without (system : FileSystem) (path : Path) :
    system.discard path = system ∨
      system.discard path = system.without (path.locationFrom system.tree.working) := by
  unfold discard
  cases removes : system.removeFile path with
  | error reason => exact Or.inl rfl
  | ok changed => exact Or.inr (of_removeFile removes).2

/-- A path leads behind the link at its end. -/
theorem of_follow
    {target : Path} (follows : system.follow path = .ok target) :
    target.locationFrom system.tree.working =
        system.behind (path.locationFrom system.tree.working) ∧
      (system.link? (path.locationFrom system.tree.working) = none → target = path) := by
  unfold follow at follows
  obtain ⟨place, walked, follows⟩ := bind_eq_ok_iff.mp follows
  cases follows
  rw [← location_of_place walked, behind]
  cases linked : system.link? place.location with
  | none => exact ⟨(location_of_place walked).symm, fun _ => rfl⟩
  | some destination => exact ⟨rfl, nofun⟩

/-- A file is written behind the link that is in its place. -/
theorem of_prepareWrite
    {target : Path} {stop : Option Interruption}
    (prepares : system.prepareWrite path = .ok (target, stop)) :
    target.locationFrom system.tree.working =
        system.behind (path.locationFrom system.tree.working) ∧
      (system.link? (path.locationFrom system.tree.working) = none → target = path) := by
  unfold prepareWrite at prepares
  obtain ⟨followed, follows, prepares⟩ := bind_eq_ok_iff.mp prepares
  obtain ⟨goal, _, prepares⟩ := bind_eq_ok_iff.mp prepares
  obtain ⟨_, _, prepares⟩ := bind_eq_ok_iff.mp prepares
  cases prepares
  exact of_follow follows

/-- A file is written as it is in the tree, and perhaps in part; otherwise nothing happens. -/
theorem writeFile_cases (system : FileSystem) (path : Path) (bytes : Bytes) :
    (∃ reason, system.writeFile path bytes = (system, .error reason)) ∨
      ∃ target part written result,
        target.locationFrom system.tree.working =
            system.behind (path.locationFrom system.tree.working) ∧
          (system.link? (path.locationFrom system.tree.working) = none → target = path) ∧
          system.tree.writeFile target part = .ok written ∧
          system.writeFile path bytes = ({ system with tree := written }, result) ∧
          (result = .ok () → part = bytes) := by
  unfold writeFile
  cases prepares : system.prepareWrite path with
  | error reason => exact Or.inl ⟨reason, rfl⟩
  | ok prepared =>
      obtain ⟨target, stop⟩ := prepared
      obtain ⟨location, same⟩ := of_prepareWrite prepares
      cases stop with
      | none =>
          dsimp only
          cases writes : system.tree.writeFile target bytes with
          | error reason => exact Or.inl ⟨reason, rfl⟩
          | ok written =>
              exact
                Or.inr ⟨target, bytes, written, .ok (), location, same, writes, rfl, fun _ => rfl⟩
      | some stop =>
          dsimp only
          cases writes : system.tree.writeFile target (bytes.take stop.written) with
          | error reason => exact Or.inl ⟨reason, rfl⟩
          | ok written =>
              exact Or.inr ⟨target, _, written, _, location, same, writes, rfl, nofun⟩

/-- A file that can be written in the tree is written, if there is no link, nothing comes in between
and there is the right to it. -/
theorem writeFile_of_tree
    {bytes : Bytes} {written : FileTree} (writes : system.tree.writeFile path bytes = .ok written)
    (noLink : system.link? (path.locationFrom system.tree.working) = none)
    (writable : system.unwritable? (path.locationFrom system.tree.working) = none)
    (whole : system.interrupted? (path.locationFrom system.tree.working) = none) :
    system.writeFile path bytes = ({ system with tree := written }, .ok ()) := by
  obtain ⟨parent, name, walked⟩ := exists_place_of_writeFile writes
  rw [← location_of_place walked] at noLink writable whole
  have prepares : system.prepareWrite path = .ok (path, none) := by
    rw [prepareWrite, follow, walked]
    simp only [bind, Except.bind, pure, Except.pure, noLink, Option.getD_none, walked, writable,
      whole, refuse]
  rw [writeFile, prepares]
  dsimp only
  rw [writes]

/-- A file that can be renamed in the tree is renamed, if it is no link and both names are free. -/
theorem renameFile_of_tree
    {target : Path} {renamed : FileTree}
    (renames : system.tree.renameFile path target = .ok renamed)
    (noLink : system.link? (path.locationFrom system.tree.working) = none)
    (movable : system.fixed? (path.locationFrom system.tree.working) = none)
    (replaceable : system.fixed? (target.locationFrom system.tree.working) = none) :
    system.renameFile path target =
      .ok { system with
        tree := renamed
        link? := system.linksWithout (target.locationFrom system.tree.working) } := by
  obtain ⟨place, walked⟩ := exists_place_of_renameFile renames
  obtain ⟨_, goal, _, reached, _, _⟩ := eq_put_of_renameFile renames
  rw [← location_of_place walked] at noLink movable
  rw [← location_of_place reached] at replaceable ⊢
  rw [renameFile, walked]
  simp only [bind, Except.bind, pure, Except.pure, movable, noLink, refuse, renames, reached,
    replaceable]

/-- A file is renamed as it is in the tree, in place of the link that is there.  A link is moved in
place of what is there. -/
theorem of_renameFile
    {target : Path} (renames : system.renameFile path target = .ok changed) :
    (system.link? (path.locationFrom system.tree.working) = none ∧
      ∃ renamed, system.tree.renameFile path target = .ok renamed ∧
        changed =
          { system with
            tree := renamed
            link? := system.linksWithout (target.locationFrom system.tree.working) }) ∨
      ∃ destination,
        system.link? (path.locationFrom system.tree.working) = some destination ∧
        changed =
          { system with
            tree :=
              (system.tree.erase (path.locationFrom system.tree.working)).erase
                (target.locationFrom system.tree.working)
            link? := fun location =>
              if location = target.locationFrom system.tree.working then some destination
              else system.linksWithout (path.locationFrom system.tree.working) location } := by
  unfold renameFile at renames
  obtain ⟨place, walked, renames⟩ := bind_eq_ok_iff.mp renames
  obtain ⟨_, _, renames⟩ := bind_eq_ok_iff.mp renames
  rw [← location_of_place walked]
  split at renames
  · next destination linked =>
      obtain ⟨goal, reached, renames⟩ := bind_eq_ok_iff.mp renames
      obtain ⟨_, _, renames⟩ := bind_eq_ok_iff.mp renames
      rw [← location_of_place reached]
      split at renames
      · cases renames
      · cases renames
        exact Or.inr ⟨destination, linked, rfl⟩
  · next noLink =>
      obtain ⟨renamed, succeeds, renames⟩ := bind_eq_ok_iff.mp renames
      obtain ⟨goal, reached, renames⟩ := bind_eq_ok_iff.mp renames
      obtain ⟨_, _, renames⟩ := bind_eq_ok_iff.mp renames
      rw [← location_of_place reached]
      cases renames
      exact Or.inl ⟨noLink, renamed, succeeds, rfl⟩

/-- A name that a file or link is taken from has nothing then.  Only one other name is changed. -/
theorem frame_of_renameFile
    {target : Path} (renames : system.renameFile path target = .ok changed)
    (distinct :
      path.locationFrom system.tree.working ≠ target.locationFrom system.tree.working)
    (notRoot : path.locationFrom system.tree.working ≠ []) :
    KeepsRights system changed ∧
      changed.tree.node? (path.locationFrom system.tree.working) = none ∧
      changed.link? (path.locationFrom system.tree.working) = none ∧
      ∀ other, other ≠ path.locationFrom system.tree.working →
        other ≠ target.locationFrom system.tree.working →
          changed.tree.node? other = system.tree.node? other ∧
            changed.link? other = system.link? other := by
  rcases of_renameFile renames with ⟨noLink, renamed, succeeds, rfl⟩ | ⟨destination, _, rfl⟩
  · obtain ⟨file, _, _, _, _, rfl⟩ := eq_put_of_renameFile succeeds
    refine ⟨⟨rfl, rfl⟩, ?_, ?_, fun other notSource notGoal => ⟨?_, ?_⟩⟩
    · rw [node?_put_of_ne _ _ distinct, node?_erase _ _ notRoot, if_pos rfl]
    · exact (linksWithout_of_ne distinct).trans noLink
    · rw [node?_put_of_ne _ _ notGoal, node?_erase_of_ne _ notSource]
    · exact linksWithout_of_ne notGoal
  · refine ⟨⟨rfl, rfl⟩, ?_, ?_, fun other notSource notGoal => ⟨?_, ?_⟩⟩
    · rw [node?_erase_of_ne _ distinct, node?_erase _ _ notRoot, if_pos rfl]
    · exact (if_neg distinct).trans (if_pos rfl)
    · rw [node?_erase_of_ne _ notGoal, node?_erase_of_ne _ notSource]
    · exact (if_neg notGoal).trans (linksWithout_of_ne notSource)

/-- A file can be read just if its path leads to it and reading it is not refused. -/
theorem fileAt_eq_ok_iff {file : File} :
    system.fileAt path = .ok file ↔
      ∃ target, system.follow path = .ok target ∧ system.tree.fileAt target = .ok file ∧
        system.unreadable? (system.behind (path.locationFrom system.tree.working)) = none := by
  unfold fileAt
  constructor
  · intro reads
    obtain ⟨target, follows, reads⟩ := bind_eq_ok_iff.mp reads
    obtain ⟨place, walked, reads⟩ := bind_eq_ok_iff.mp reads
    obtain ⟨_, allowed, reads⟩ := bind_eq_ok_iff.mp reads
    refine ⟨target, follows, reads, ?_⟩
    rw [← (of_follow follows).1, ← location_of_place walked]
    exact refuse_eq_ok_iff.mp allowed
  · rintro ⟨target, follows, reads, readable⟩
    obtain ⟨place, walked⟩ := exists_place_of_nodeAt (FileTree.fileAt_eq_ok_iff.mp reads)
    rw [← (of_follow follows).1, ← location_of_place walked] at readable
    exact
      bind_eq_ok_iff.mpr ⟨target, follows, bind_eq_ok_iff.mpr ⟨place, walked,
        bind_eq_ok_iff.mpr ⟨(), refuse_eq_ok_iff.mpr readable, reads⟩⟩⟩

section Read

variable {file : File} (reads : system.fileAt path = .ok file)

include reads

/-- What can be read is behind the link at the end of its path. -/
theorem node?_of_fileAt :
    system.tree.node? (system.behind (path.locationFrom system.tree.working)) =
      some (.file file) := by
  obtain ⟨target, follows, found, _⟩ := fileAt_eq_ok_iff.mp reads
  rw [← (of_follow follows).1]
  exact FileTree.node?_of_fileAt found

/-- What can be read can be marked as changed, unless that is refused. -/
theorem touch_of_fileAt :
    (system.touch path).toOption.getD system =
      if system.unwritable? (system.behind (path.locationFrom system.tree.working)) = none then
        { system with
          tree :=
            system.tree.tick.put (system.behind (path.locationFrom system.tree.working))
              (.file { file with modified := system.tree.tick.clock }) }
      else system := by
  obtain ⟨target, follows, found, _⟩ := fileAt_eq_ok_iff.mp reads
  obtain ⟨place, walked⟩ := exists_place_of_nodeAt (FileTree.fileAt_eq_ok_iff.mp found)
  obtain ⟨touched, touches⟩ := exists_touch_eq_ok found
  obtain ⟨same, present, rfl⟩ := eq_put_of_touch touches
  rw [FileTree.node?_of_fileAt found] at present
  cases present
  rw [touch, follows, ← (of_follow follows).1]
  simp only [bind, Except.bind, walked, touches]
  rw [← location_of_place walked]
  cases system.unwritable? place.location with
  | none => rfl
  | some reason => rfl

/-- What can be read can be removed, or the link that leads to it, unless that is refused. -/
theorem discard_of_fileAt :
    system.discard path =
      if system.fixed? (path.locationFrom system.tree.working) = none then
        system.without (path.locationFrom system.tree.working)
      else system := by
  obtain ⟨target, follows, found, _⟩ := fileAt_eq_ok_iff.mp reads
  have direct := (of_follow follows).2
  obtain ⟨place, walked, _⟩ := bind_eq_ok_iff.mp follows
  rw [discard, removeFile, walked]
  rw [← location_of_place walked] at direct ⊢
  simp only [bind, Except.bind]
  cases system.fixed? place.location with
  | some reason => rfl
  | none =>
      cases linked : system.link? place.location with
      | some destination => rfl
      | none =>
          obtain rfl := direct linked
          simp only [refuse, removeFile_of_fileAt found, without, linksWithout_of_none linked,
            ← location_of_place walked]
          rfl

end Read

end Operations

end SourcePreview.FileSystem
