import SourcePreview.FileTree.Walk
import SourcePreview.Proofs.Text.Utf8
import Mathlib.Data.List.TakeWhile

/-!
# The location that a path names

A tree has no links, so where a path leads is determined by its pieces and the working directory
alone.  The tree decides only whether the walk succeeds, and it succeeds in every tree that has
at least the same directories.  A plain name below a directory leads to that name at the location
of the directory, and a path that ends in neither a dot nor a slash leads to a name that ends in
the same byte.
-/

namespace SourcePreview

namespace Path

/-- The pieces before and after a slash are those of the two sides. -/
theorem piecesFrom_append_slash (current left right : Bytes) :
    piecesFrom current (left ++ slash :: right) =
      piecesFrom current left ++ piecesFrom [] right := by
  induction left generalizing current with
  | nil => simp [piecesFrom]
  | cons byte left ih =>
      rw [List.cons_append, piecesFrom, piecesFrom]
      split
      · rw [ih, List.cons_append]
      · exact ih (byte :: current)

/-- Bytes without a slash are one piece. -/
theorem piecesFrom_of_slash_not_mem
    {bytes : Bytes} (noSlash : slash ∉ bytes) (current : Bytes) :
    piecesFrom current bytes = [current.reverse ++ bytes] := by
  induction bytes generalizing current with
  | nil => simp [piecesFrom]
  | cons byte bytes ih =>
      rw [List.mem_cons, not_or] at noSlash
      rw [piecesFrom, if_neg (Ne.symm noSlash.1), ih noSlash.2]
      simp

/-- The last piece ends in the last byte, unless that is a slash. -/
theorem exists_piecesFrom_append_singleton
    {last : UInt8} (noSlash : last ≠ slash) (current front : Bytes) :
    ∃ pieces piece,
      piecesFrom current (front ++ [last]) = pieces ++ [piece] ∧
        piece.getLast? = some last := by
  induction front generalizing current with
  | nil =>
      exact
        ⟨[], current.reverse ++ [last], by simp [piecesFrom, noSlash],
          by simp⟩
  | cons byte front ih =>
      rw [List.cons_append, piecesFrom]
      split
      · obtain ⟨pieces, piece, split, ends⟩ := ih []
        exact ⟨current.reverse :: pieces, piece, by rw [split]; rfl, ends⟩
      · exact ih (byte :: current)

/-- The location that a piece leads to, whatever is there. -/
def follow (location : Location) (piece : Bytes) : Location :=
  match Component.ofPiece? piece with
  | some .parent => location.dropLast
  | some (.entry name) => location ++ [name]
  | _ => location

@[simp]
theorem follow_nil (location : Location) : follow location [] = location := rfl

/-- Following empty pieces leads nowhere. -/
theorem foldl_follow_of_all_isEmpty
    {pieces : List Bytes} (empty : ∀ piece ∈ pieces, piece.isEmpty = true)
    (location : Location) :
    pieces.foldl follow location = location := by
  induction pieces with
  | nil => rfl
  | cons piece pieces ih =>
      have isNil : piece = [] := List.isEmpty_iff.mp (empty piece (by simp))
      rw [List.foldl_cons, isNil, follow_nil]
      exact ih fun other member => empty other (by simp [member])

/-- The location that a path leads to from a working directory. -/
def locationFrom (working : Location) (path : Path) : Location :=
  (piecesFrom [] path.bytes).foldl follow (if path.isAbsolute then [] else working)

/-- A piece that does not end in a dot stands for an entry. -/
theorem Component.ofPiece?_of_getLast?
    {piece : Bytes} {last : UInt8} (ends : piece.getLast? = some last) (noDot : last ≠ dot) :
    Component.ofPiece? piece = some (.entry piece) := by
  rw [Component.ofPiece?, if_neg, if_neg]
  · rintro rfl
    exact noDot (Option.some.inj ends).symm
  · rintro (rfl | rfl)
    · cases ends
    · exact noDot (Option.some.inj ends).symm

/-- Whether bytes are the name of an entry and nothing else. -/
structure IsPlainName (name : Bytes) : Prop where
  isEntry : Component.ofPiece? name = some (.entry name)
  noSlash : slash ∉ name

theorem IsPlainName.ne_nil
    {name : Bytes} (plain : IsPlainName name) : name ≠ [] := by
  rintro rfl
  cases plain.isEntry

theorem IsPlainName.isAbsolute_ofString
    {name : String} (plain : IsPlainName (Text.encode name.toList)) :
    (ofString name).isAbsolute = false := by
  cases bytes : Text.encode name.toList with
  | nil => exact absurd bytes plain.ne_nil
  | cons first rest =>
      have notSlash : first ≠ slash := by
        rintro rfl
        exact plain.noSlash (bytes ▸ List.mem_cons_self ..)
      simp [isAbsolute, ofString, bytes, notSlash]

/-- The pieces of a name below a directory are those of the directory, up to empty ones, and then
the name. -/
theorem exists_piecesFrom_child
    (directory : Path) {name : String}
    (plain : IsPlainName (Text.encode name.toList)) :
    ∃ pieces,
      piecesFrom [] (directory.child name).bytes =
          pieces ++ [Text.encode name.toList] ∧
        (directory.child name).isAbsolute = directory.isAbsolute ∧
        ∃ empties,
          piecesFrom [] directory.bytes = pieces ++ empties ∧
            ∀ piece ∈ empties, piece.isEmpty = true := by
  have single :
      piecesFrom [] (Text.encode name.toList) = [Text.encode name.toList] :=
    piecesFrom_of_slash_not_mem plain.noSlash []
  have relative := plain.isAbsolute_ofString
  rw [child, join, if_neg (by simp [relative])]
  by_cases empty : directory.bytes = []
  · rw [if_pos (Or.inl empty)]
    refine ⟨[], ?_, ?_, [[]], ?_, ?_⟩
    · simp [empty, ofString, single]
    · simpa [isAbsolute, empty] using relative
    · simp [empty, piecesFrom]
    · simp
  by_cases slashed : directory.bytes.getLast? = some slash
  · obtain ⟨front, split⟩ : ∃ front, directory.bytes = front ++ [slash] :=
      List.getLast?_eq_some_iff.mp slashed
    rw [if_pos (Or.inr slashed)]
    refine ⟨piecesFrom [] front, ?_, ?_, [[]], ?_, ?_⟩
    · simp [split, ofString, piecesFrom_append_slash, single]
    · cases front <;> simp [isAbsolute, split]
    · simp [split, piecesFrom_append_slash, piecesFrom]
    · simp
  · rw [if_neg (not_or.mpr ⟨empty, slashed⟩)]
    refine ⟨piecesFrom [] directory.bytes, ?_, ?_, [], by simp, by simp⟩
    · simp [ofString, piecesFrom_append_slash, single]
    · cases bytes : directory.bytes with
      | nil => exact absurd bytes empty
      | cons first rest => simp [isAbsolute, bytes]

/-- The path of a plain name below a directory ends in the name, after a slash at most. -/
theorem exists_bytes_child (directory : Path) :
    ∃ between,
      0 ∉ between ∧
        ∀ {name : String}, IsPlainName (Text.encode name.toList) →
          (directory.child name).bytes =
            directory.bytes ++ between ++ Text.encode name.toList := by
  by_cases whole : directory.bytes = [] ∨ directory.bytes.getLast? = some slash
  · refine ⟨[], by simp, fun plain => ?_⟩
    rw [child, join, if_neg (by simp [plain.isAbsolute_ofString]), if_pos whole]
    simp [ofString]
  · refine ⟨[slash], by decide, fun plain => ?_⟩
    rw [child, join, if_neg (by simp [plain.isAbsolute_ofString]), if_neg whole]
    simp [ofString]

/-- A plain name below a directory leads to that name at the location of the directory. -/
theorem locationFrom_child
    (working : Location) (directory : Path) {name : String}
    (plain : IsPlainName (Text.encode name.toList)) :
    (directory.child name).locationFrom working =
      directory.locationFrom working ++ [Text.encode name.toList] := by
  obtain ⟨pieces, split, sameStart, empties, directoryIs, empty⟩ :=
    exists_piecesFrom_child directory plain
  rw [locationFrom, locationFrom, split, sameStart, directoryIs, List.foldl_append,
    List.foldl_append, foldl_follow_of_all_isEmpty empty]
  simp [follow, plain.isEntry]

/-- A path that ends in neither a dot nor a slash leads to a name with the same last byte. -/
theorem exists_locationFrom_eq_append_singleton
    {path : Path} {last : UInt8} (ends : path.bytes.getLast? = some last)
    (noSlash : last ≠ slash) (noDot : last ≠ dot) (working : Location) :
    ∃ parent name,
      path.locationFrom working = parent ++ [name] ∧
        name.getLast? = some last := by
  obtain ⟨front, split⟩ := List.getLast?_eq_some_iff.mp ends
  obtain ⟨pieces, piece, pieceSplit, pieceEnds⟩ :=
    exists_piecesFrom_append_singleton noSlash [] front
  have isEntry := Component.ofPiece?_of_getLast? pieceEnds noDot
  refine
    ⟨pieces.foldl follow (if path.isAbsolute then [] else working), piece, ?_,
      pieceEnds⟩
  rw [locationFrom, split, pieceSplit, List.foldl_append]
  simp only [List.foldl_cons, List.foldl_nil]
  rw [follow, isEntry]

end Path

/-- What succeeds after something else does so with a value of it. -/
theorem bind_eq_ok_iff
    {ε α β : Type} {first : Except ε α} {next : α → Except ε β} {result : β} :
    first >>= next = .ok result ↔ ∃ value, first = .ok value ∧ next value = .ok result := by
  cases first with
  | error failure => exact ⟨nofun, nofun⟩
  | ok value => exact ⟨fun succeeds => ⟨value, rfl, succeeds⟩, fun ⟨_, rfl, succeeds⟩ => succeeds⟩

namespace FileTree

/-- A step that succeeds leads where the piece leads. -/
theorem eq_follow_of_enter
    {tree : FileTree} {location entered : Location} {piece : Bytes}
    (succeeds : tree.enter location piece = .ok entered) :
    entered = Path.follow location piece := by
  unfold enter at succeeds
  unfold Path.follow
  cases component : Path.Component.ofPiece? piece with
  | none =>
      rw [component] at succeeds
      exact (Except.ok.inj succeeds).symm
  | some component' =>
      rw [component] at succeeds
      cases component' with
      | entry name =>
          dsimp only at succeeds ⊢
          split at succeeds
          · cases succeeds
          · split at succeeds
            · exact (Except.ok.inj succeeds).symm
            all_goals cases succeeds
      | root => exact (Except.ok.inj succeeds).symm
      | current => exact (Except.ok.inj succeeds).symm
      | parent => exact (Except.ok.inj succeeds).symm

/-- Steps that succeed lead where the pieces lead. -/
theorem eq_foldl_follow_of_foldlM_enter
    {tree : FileTree} {start reached : Location} {pieces : List Bytes}
    (succeeds : pieces.foldlM tree.enter start = .ok reached) :
    reached = pieces.foldl Path.follow start := by
  induction pieces generalizing start with
  | nil => exact (Except.ok.inj succeeds).symm
  | cons piece pieces ih =>
      rw [List.foldlM_cons] at succeeds
      obtain ⟨entered, step, succeeds⟩ := bind_eq_ok_iff.mp succeeds
      rw [List.foldl_cons, ← eq_follow_of_enter step]
      exact ih succeeds

theorem location_of_lastPlace
    {location : Location} {slashed : Bool} {piece : Bytes} {place : Place}
    (found : lastPlace location slashed piece = .ok place) :
    place.location = Path.follow location piece := by
  unfold lastPlace at found
  unfold Path.follow
  cases component : Path.Component.ofPiece? piece with
  | none =>
      rw [component] at found
      rw [← Except.ok.inj found]
      rfl
  | some component' =>
      rw [component] at found
      cases component' with
      | entry name =>
          dsimp only at found ⊢
          split at found
          · cases found
          · rw [← Except.ok.inj found]
            rfl
      | root => rw [← Except.ok.inj found]; rfl
      | current => rw [← Except.ok.inj found]; rfl
      | parent => rw [← Except.ok.inj found]; rfl

/-- The pieces of a walk that succeeds are empty, or there is a last one that is not: the pieces
before it were entered, and it stands for the place where the walk ends. -/
theorem exists_split_of_walk
    {tree : FileTree} {start : Location} {pieces : List Bytes} {place : Place}
    (found : tree.walk start pieces = .ok place) :
    ∃ empties : List Bytes, (∀ piece ∈ empties, piece.isEmpty = true) ∧
      (pieces = empties ∧ place = .directory start ∨
        ∃ before last location slashed,
          pieces = before ++ [last] ++ empties ∧
            before.foldlM tree.enter start = .ok location ∧
              lastPlace location slashed last = .ok place) := by
  have split :
      pieces =
        (pieces.reverse.dropWhile List.isEmpty).reverse ++
          (pieces.reverse.takeWhile List.isEmpty).reverse := by
    rw [← List.reverse_append, List.takeWhile_append_dropWhile,
      List.reverse_reverse]
  refine
    ⟨(pieces.reverse.takeWhile List.isEmpty).reverse,
      fun piece member => List.mem_takeWhile_imp (List.mem_reverse.mp member), ?_⟩
  unfold walk at found
  cases shape : pieces.reverse.dropWhile List.isEmpty with
  | nil =>
      rw [shape] at found split
      exact Or.inl ⟨split, (Except.ok.inj found).symm⟩
  | cons last before =>
      rw [shape] at found split
      obtain ⟨location, steps, ends⟩ := bind_eq_ok_iff.mp found
      rw [List.reverse_cons] at split
      exact Or.inr ⟨before.reverse, last, location, _, split, steps, ends⟩

/-- A walk that succeeds ends where the pieces lead. -/
theorem location_of_walk
    {tree : FileTree} {start : Location} {pieces : List Bytes} {place : Place}
    (found : tree.walk start pieces = .ok place) :
    place.location = pieces.foldl Path.follow start := by
  obtain ⟨empties, empty, ⟨rfl, rfl⟩ | ⟨before, last, location, slashed, rfl, steps, ends⟩⟩ :=
    exists_split_of_walk found
  · rw [Path.foldl_follow_of_all_isEmpty empty]
    rfl
  · rw [List.foldl_append, Path.foldl_follow_of_all_isEmpty empty, location_of_lastPlace ends,
      eq_foldl_follow_of_foldlM_enter steps, List.foldl_append]
    rfl

/-- A walk to a last piece that is not empty goes over the pieces before it. -/
theorem walk_append_singleton
    (tree : FileTree) (start : Location) (pieces : List Bytes) {last : Bytes}
    (nonempty : last ≠ []) :
    tree.walk start (pieces ++ [last]) =
      (pieces.foldlM tree.enter start).bind fun location => lastPlace location false last := by
  have notEmpty : last.isEmpty = false := by simpa using nonempty
  have unslashed : ((pieces ++ [last]).getLast? == some []) = false := by simpa using nonempty
  rw [walk, unslashed]
  simp only [List.reverse_append, List.reverse_cons, List.reverse_nil, List.nil_append,
    List.cons_append, List.dropWhile_cons, notEmpty, Bool.false_eq_true, if_false,
    List.reverse_reverse]
  rfl

theorem place_eq_ok_iff
    {tree : FileTree} {path : Path} {place : Place} :
    tree.place path = .ok place ↔
      path.bytes.contains 0 = false ∧ path.bytes.isEmpty = false ∧
        path.bytes.length ≤ longestPath ∧
          tree.walk (if path.isAbsolute then [] else tree.working)
            (Path.piecesFrom [] path.bytes) = .ok place := by
  unfold FileTree.place
  constructor
  · intro found
    split at found
    · cases found
    · next noZero =>
        split at found
        · cases found
        · next nonempty =>
            split at found
            · cases found
            · next short =>
                exact
                  ⟨by simpa using noZero, by simpa using nonempty,
                    by omega, found⟩
  · rintro ⟨noZero, nonempty, short, found⟩
    rw [if_neg (by simpa using noZero), if_neg (by simpa using nonempty),
      if_neg (by omega)]
    exact found

/-- A path that can be walked leads to the location that it names. -/
theorem location_of_place
    {tree : FileTree} {path : Path} {place : Place}
    (found : tree.place path = .ok place) :
    place.location = path.locationFrom tree.working :=
  location_of_walk (place_eq_ok_iff.mp found).2.2.2

/-- What can be read has a path that can be walked. -/
theorem exists_place_of_nodeAt
    {tree : FileTree} {path : Path} {node : Node}
    (found : tree.nodeAt path = .ok node) :
    ∃ place, tree.place path = .ok place := by
  unfold nodeAt at found
  obtain ⟨place, walked, _⟩ := bind_eq_ok_iff.mp found
  exact ⟨place, walked⟩

/-- What can be read is where its path leads. -/
theorem node?_of_nodeAt
    {tree : FileTree} {path : Path} {node : Node}
    (found : tree.nodeAt path = .ok node) :
    tree.node? (path.locationFrom tree.working) = some node := by
  unfold nodeAt at found
  obtain ⟨place, walked, found⟩ := bind_eq_ok_iff.mp found
  rw [← location_of_place walked]
  split at found
  · cases found
  · next present => rw [present, Except.ok.inj found]
  · cases found

/-- A plain name below a directory is walked to as an entry of the directory. -/
theorem eq_entry_of_place_child
    {tree : FileTree} {directory : Path} {name : String} {place : Place}
    (plain : Path.IsPlainName (Text.encode name.toList))
    (found : tree.place (directory.child name) = .ok place) :
    place =
      .entry (directory.locationFrom tree.working) (Text.encode name.toList)
        false := by
  obtain ⟨pieces, split, sameStart, empties, directoryIs, empty⟩ :=
    Path.exists_piecesFrom_child directory plain
  have walked := (place_eq_ok_iff.mp found).2.2.2
  rw [split, sameStart, walk_append_singleton _ _ _ plain.ne_nil] at walked
  obtain ⟨location, steps, ends⟩ := bind_eq_ok_iff.mp walked
  have reached := eq_foldl_follow_of_foldlM_enter steps
  rw [← Path.foldl_follow_of_all_isEmpty empty (pieces.foldl _ _),
    ← List.foldl_append, ← directoryIs, ← Path.locationFrom] at reached
  simp only [lastPlace, plain.isEntry] at ends
  split at ends
  · cases ends
  · rw [← Except.ok.inj ends, reached]

/-- Empty pieces lead nowhere in every tree. -/
theorem foldlM_enter_of_all_isEmpty
    (tree : FileTree) {pieces : List Bytes}
    (empty : ∀ piece ∈ pieces, piece.isEmpty = true) (location : Location) :
    pieces.foldlM tree.enter location = .ok location := by
  induction pieces with
  | nil => rfl
  | cons piece pieces ih =>
      have isNil : piece = [] := List.isEmpty_iff.mp (empty piece (by simp))
      rw [List.foldlM_cons, isNil]
      exact ih fun other member => empty other (by simp [member])

/-- The last piece can be entered if it stands for a directory. -/
theorem enter_of_lastPlace
    {tree : FileTree} {location : Location} {slashed : Bool} {piece : Bytes} {place : Place}
    (found : lastPlace location slashed piece = .ok place)
    (isDirectory : tree.node? place.location = some .directory) :
    tree.enter location piece = .ok place.location := by
  unfold lastPlace at found
  unfold enter
  cases component : Path.Component.ofPiece? piece with
  | none =>
      rw [component] at found
      cases found
      rfl
  | some component' =>
      rw [component] at found
      cases component' with
      | entry name =>
          dsimp only at found ⊢
          split at found
          · cases found
          · next short =>
              cases found
              rw [Place.location] at isDirectory
              rw [if_neg short, isDirectory]
              rfl
      | root => cases found; rfl
      | current => cases found; rfl
      | parent => cases found; rfl

/-- A walk to a directory can go on from there. -/
theorem foldlM_enter_of_walk
    {tree : FileTree} {start : Location} {pieces : List Bytes} {place : Place}
    (found : tree.walk start pieces = .ok place)
    (isDirectory : tree.node? place.location = some .directory) :
    pieces.foldlM tree.enter start = .ok place.location := by
  obtain ⟨empties, empty, ⟨rfl, rfl⟩ | ⟨before, last, location, slashed, rfl, steps, ends⟩⟩ :=
    exists_split_of_walk found
  · exact foldlM_enter_of_all_isEmpty tree empty start
  · have entered := enter_of_lastPlace ends isDirectory
    rw [List.foldlM_append, List.foldlM_append, steps]
    simp only [bind, Except.bind, List.foldlM_cons, List.foldlM_nil, entered]
    exact foldlM_enter_of_all_isEmpty tree empty place.location

/-- Whether all pieces of a path can be entered one after the other, so that a walk can go on behind
it. -/
def Enters (tree : FileTree) (path : Path) : Prop :=
  ∃ location,
    (Path.piecesFrom [] path.bytes).foldlM tree.enter
        (if path.isAbsolute then [] else tree.working) =
      .ok location

/-- A path that leads to a directory has no byte zero in it and can be entered. -/
theorem enters_of_nodeAt
    {tree : FileTree} {directory : Path}
    (isDirectory : tree.nodeAt directory = .ok .directory) :
    0 ∉ directory.bytes ∧ tree.Enters directory := by
  obtain ⟨place, walkedTo⟩ := exists_place_of_nodeAt isDirectory
  have present := node?_of_nodeAt isDirectory
  rw [← location_of_place walkedTo] at present
  obtain ⟨noZero, _, _, walked⟩ := place_eq_ok_iff.mp walkedTo
  exact ⟨by simpa using noZero, place.location, foldlM_enter_of_walk walked present⟩

/-- A plain name below a directory can be walked to just if the directory can be entered and the
path is not too long. -/
theorem place_child_eq_ok_iff
    {tree : FileTree} {directory : Path} {name : String}
    (plain : Path.IsPlainName (Text.encode name.toList))
    (noZero : 0 ∉ Text.encode name.toList)
    (shortName : (Text.encode name.toList).length ≤ longestName) :
    tree.place (directory.child name) =
        .ok (.entry (directory.locationFrom tree.working) (Text.encode name.toList) false) ↔
      (0 ∉ directory.bytes ∧ tree.Enters directory) ∧
        (directory.child name).bytes.length ≤ longestPath := by
  obtain ⟨pieces, split, sameStart, empties, directoryIs, empty⟩ :=
    Path.exists_piecesFrom_child directory plain
  obtain ⟨between, betweenNoZero, bytes⟩ := Path.exists_bytes_child directory
  have contains :
      (directory.child name).bytes.contains 0 = false ↔ 0 ∉ directory.bytes := by
    simp [bytes plain, betweenNoZero, noZero]
  have nonempty : (directory.child name).bytes.isEmpty = false := by
    simp [bytes plain, plain.ne_nil]
  -- The empty pieces at the end of the path of the directory make no difference to the walk.
  have same (location : Location) :
      (pieces ++ empties).foldlM tree.enter location = pieces.foldlM tree.enter location := by
    rw [List.foldlM_append]
    cases pieces.foldlM tree.enter location with
    | error failure => rfl
    | ok location => exact foldlM_enter_of_all_isEmpty tree empty location
  rw [place_eq_ok_iff, contains, split, sameStart, walk_append_singleton _ _ _ plain.ne_nil,
    Enters, directoryIs, same]
  simp only [nonempty, true_and]
  cases steps :
      pieces.foldlM tree.enter (if directory.isAbsolute then [] else tree.working) with
  | error failure => simp [Except.bind]
  | ok location =>
      have reached := eq_foldl_follow_of_foldlM_enter steps
      rw [← Path.foldl_follow_of_all_isEmpty empty (pieces.foldl _ _),
        ← List.foldl_append, ← directoryIs, ← Path.locationFrom] at reached
      have short : ¬longestName < (Text.encode name.toList).length := Nat.not_lt.mpr shortName
      simp [Except.bind, lastPlace, plain.isEntry, short, reached]

/-- A plain name below a directory can be walked to unless it or its path is too long. -/
theorem place_child_of_nodeAt
    {tree : FileTree} {directory : Path} (isDirectory : tree.nodeAt directory = .ok .directory)
    {name : String} (plain : Path.IsPlainName (Text.encode name.toList))
    (noZero : 0 ∉ Text.encode name.toList)
    (shortName : (Text.encode name.toList).length ≤ longestName)
    (shortPath : (directory.child name).bytes.length ≤ longestPath) :
    tree.place (directory.child name) =
      .ok (.entry (directory.locationFrom tree.working) (Text.encode name.toList) false) :=
  (place_child_eq_ok_iff plain noZero shortName).mpr ⟨enters_of_nodeAt isDirectory, shortPath⟩

/-- A walk to a plain name below a directory fails only because its path is too long. -/
theorem place_child_or_nameTooLong
    {tree : FileTree} {directory : Path} (isDirectory : tree.nodeAt directory = .ok .directory)
    {name : String} (plain : Path.IsPlainName (Text.encode name.toList))
    (noZero : 0 ∉ Text.encode name.toList)
    (shortName : (Text.encode name.toList).length ≤ longestName) :
    tree.place (directory.child name) =
        .ok (.entry (directory.locationFrom tree.working) (Text.encode name.toList) false) ∨
      tree.place (directory.child name) = .error .nameTooLong := by
  by_cases shortPath : (directory.child name).bytes.length ≤ longestPath
  · exact Or.inl (place_child_of_nodeAt isDirectory plain noZero shortName shortPath)
  · refine Or.inr ?_
    obtain ⟨between, betweenNoZero, bytes⟩ := Path.exists_bytes_child directory
    have directoryFree := (enters_of_nodeAt isDirectory).1
    have free : ¬(directory.child name).bytes.contains 0 = true := by
      simp [bytes plain, directoryFree, betweenNoZero, noZero]
    have nonempty : ¬(directory.child name).bytes.isEmpty = true := by
      simp [bytes plain, plain.ne_nil]
    rw [FileTree.place, if_neg free, if_neg nonempty, if_pos (Nat.lt_of_not_le shortPath)]

section Directories

variable
    {tree other : FileTree}
    (directories : ∀ location,
      tree.node? location = some .directory →
        other.node? location = some .directory)

include directories

theorem enter_of_directories
    {location entered : Location} {piece : Bytes}
    (succeeds : tree.enter location piece = .ok entered) :
    other.enter location piece = .ok entered := by
  unfold enter at succeeds ⊢
  cases component : Path.Component.ofPiece? piece with
  | none => simpa [component] using succeeds
  | some component' =>
      rw [component] at succeeds
      cases component' with
      | entry name =>
          dsimp only at succeeds ⊢
          split at succeeds
          · cases succeeds
          · next short =>
              split at succeeds
              · next isDirectory =>
                  rw [if_neg short, directories _ isDirectory]
                  exact succeeds
              all_goals cases succeeds
      | root => exact succeeds
      | current => exact succeeds
      | parent => exact succeeds

theorem foldlM_enter_of_directories
    {start reached : Location} {pieces : List Bytes}
    (succeeds : pieces.foldlM tree.enter start = .ok reached) :
    pieces.foldlM other.enter start = .ok reached := by
  induction pieces generalizing start with
  | nil => exact succeeds
  | cons piece pieces ih =>
      rw [List.foldlM_cons] at succeeds ⊢
      obtain ⟨entered, step, succeeds⟩ := bind_eq_ok_iff.mp succeeds
      rw [enter_of_directories directories step]
      exact ih succeeds

/-- A walk that succeeds also succeeds where there are at least the same directories. -/
theorem walk_of_directories
    {start : Location} {pieces : List Bytes} {place : Place}
    (found : tree.walk start pieces = .ok place) :
    other.walk start pieces = .ok place := by
  unfold walk at found ⊢
  cases shape : pieces.reverse.dropWhile List.isEmpty with
  | nil =>
      rw [shape] at found
      exact found
  | cons last before =>
      rw [shape] at found
      obtain ⟨location, steps, ends⟩ := bind_eq_ok_iff.mp found
      exact bind_eq_ok_iff.mpr ⟨location, foldlM_enter_of_directories directories steps, ends⟩

/-- A path that can be walked can also be walked where there are at least the same directories. -/
theorem place_of_directories
    (sameWorking : other.working = tree.working)
    {path : Path} {place : Place} (found : tree.place path = .ok place) :
    other.place path = .ok place := by
  obtain ⟨noZero, nonempty, short, walked⟩ := place_eq_ok_iff.mp found
  exact
    place_eq_ok_iff.mpr
      ⟨noZero, nonempty, short,
        sameWorking ▸ walk_of_directories directories walked⟩

end Directories

end FileTree

end SourcePreview
