import SourcePreview.Proofs.Cache.FiniteMap

/-!
# Looking entries up by name

A lookup takes any text for a name.  Only sixty-four lower-case hexadecimal digits are the name of
an entry, so no text leads out of the directory of the cache, and all that a lookup can change is
the one file there with that name, or the time of the file that it leads to if it is a link.  What
can be decoded is found and marked as used, and what cannot be decoded is removed.  The path of the
entry has to be walked for that, which may be too long although the directory can be listed, and the
system has to let the file be read, changed or removed.
-/

namespace SourcePreview

namespace Key

/-- Whether a text consists of sixty-four lower-case hexadecimal digits. -/
structure IsDigits (name : String) : Prop where
  length : name.length = 64
  digits : ∀ character ∈ name.toList, character ∈ "0123456789abcdef".toList

theorem lowerHexDigit_mem :
    ∀ value < 16, Text.lowerHexDigit value ∈ "0123456789abcdef".toList := by
  decide

/-- The written form of a key has the digits that its bytes are written as. -/
theorem isDigits_name (key : Key) : IsDigits key.name := by
  have lengths : (key.bytes.flatMap Text.lowerHex).length = key.bytes.length * 2 := by
    simp [List.length_flatMap, Text.lowerHex]
  refine ⟨?_, fun character member => ?_⟩
  · rw [← String.length_toList, name, String.toList_ofList, lengths, key.length_bytes]
  · rw [name, String.toList_ofList] at member
    obtain ⟨byte, _, digit⟩ := List.mem_flatMap.mp member
    have small := byte.toNat_lt
    simp only [Text.lowerHex, List.mem_cons, List.not_mem_nil, or_false] at digit
    rcases digit with rfl | rfl
    · exact lowerHexDigit_mem _ (by omega)
    · exact lowerHexDigit_mem _ (by omega)

/-- Digits are one byte each. -/
theorem encode_of_digits
    {characters : List Char}
    (digits : ∀ character ∈ characters, character ∈ "0123456789abcdef".toList) :
    (Text.encode characters).length = characters.length ∧
      (Text.encode characters).all isNameByte = true := by
  have single :
      ("0123456789abcdef".toList.all fun digit =>
        (Text.encode [digit]).length == 1 && (Text.encode [digit]).all isNameByte) = true := by
    decide
  induction characters with
  | nil => exact ⟨rfl, rfl⟩
  | cons character characters ih =>
      rw [List.forall_mem_cons] at digits
      obtain ⟨length, all⟩ := ih digits.2
      have isSingle := List.all_eq_true.mp single character digits.1
      rw [Bool.and_eq_true, beq_iff_eq] at isSingle
      obtain ⟨one, isDigit⟩ := isSingle
      rw [← List.singleton_append, Text.encode_append, List.length_append, List.all_append, one,
        isDigit, length, all, List.length_append]
      exact ⟨rfl, rfl⟩

/-- The texts with the form of a written key are those of sixty-four digits, whatever their bytes
look like. -/
theorem isName_iff {name : String} : isName name = true ↔ IsDigits name := by
  constructor
  · intro isName
    obtain ⟨key, _, rfl⟩ := exists_ofName?_of_isName isName
    exact key.isDigits_name
  · intro form
    obtain ⟨length, all⟩ := encode_of_digits form.digits
    rw [isName, isNameBytes, length, all, String.length_toList, form.length]
    rfl

end Key

namespace DiskTier

open FileTree FileSystem

/-- Where the file with a name in the directory of a tier is. -/
def namedLocation (tier : DiskTier) (tree : FileTree) (name : String) : Location :=
  tier.config.directory.locationFrom tree.working ++ [Text.encode name.toList]

theorem namedLocation_ne_nil (tier : DiskTier) (tree : FileTree) (name : String) :
    tier.namedLocation tree name ≠ [] :=
  List.concat_ne_nil _ _

/-- Whether the directory of a tier is there and the path of the file with a name is not too
long. -/
structure Leads (tier : DiskTier) (tree : FileTree) (name : String) : Prop where
  directory : 0 ∉ tier.config.directory.bytes ∧ tree.Enters tier.config.directory
  shortPath : (tier.config.directory.child name).bytes.length ≤ longestPath

/-- Whether there is a file with a name in the directory of a tier, or a link that leads to one. -/
structure OpensTo (tier : DiskTier) (system : FileSystem) (name : String) (file : File) : Prop where
  leads : tier.Leads system.tree name
  direct :
    system.link? (tier.namedLocation system.tree name) = none →
      system.tree.node? (tier.namedLocation system.tree name) = some (.file file)
  linked : ∀ destination,
    system.link? (tier.namedLocation system.tree name) = some destination →
      system.tree.fileAt destination = .ok file

namespace OpensTo

variable {tier : DiskTier} {system : FileSystem} {name : String} {file other : File}

/-- The file that is opened is behind the link, if there is one. -/
theorem node?_behind (opens : tier.OpensTo system name file) :
    system.tree.node? (system.behind (tier.namedLocation system.tree name)) =
      some (.file file) := by
  rw [behind]
  cases linked : system.link? (tier.namedLocation system.tree name) with
  | none => exact opens.direct linked
  | some destination => exact FileTree.node?_of_fileAt (opens.linked destination linked)

theorem unique (opens : tier.OpensTo system name file) (opensToo : tier.OpensTo system name other) :
    file = other := by
  cases opens.node?_behind.symm.trans opensToo.node?_behind
  rfl

end OpensTo

/-- What a lookup of a name finds and how it changes the file system. -/
structure IsConfinedLookup
    (tier : DiskTier) (name : String) (before after : FileSystem) (found : Option StyledText) :
    Prop where
  keeps : KeepsRights before after
  /-- Nothing but the file with that name in the directory, or behind the link, changes. -/
  others : ∀ location,
    location ≠ tier.namedLocation before.tree name →
      location ≠ before.behind (tier.namedLocation before.tree name) →
        after.tree.node? location = before.tree.node? location
  links : ∀ location,
    location ≠ tier.namedLocation before.tree name → after.link? location = before.link? location
  /-- What is no name of an entry is not looked for. -/
  malformed : ¬Key.IsDigits name → after = before ∧ found = none
  /-- A file that can be decoded is found, and its time is now if it can be changed. -/
  hit : Key.IsDigits name → ∀ file styled,
    tier.OpensTo before name file →
      before.unreadable? (before.behind (tier.namedLocation before.tree name)) = none →
        Entry.decode file.bytes = .ok styled →
          found = some styled ∧
            if before.unwritable? (before.behind (tier.namedLocation before.tree name)) = none then
              after.tree.node? (before.behind (tier.namedLocation before.tree name)) =
                  some (.file { file with modified := after.tree.clock }) ∧
                before.tree.clock < after.tree.clock ∧
                after.link? = before.link? ∧
                ∀ location,
                  location ≠ before.behind (tier.namedLocation before.tree name) →
                    after.tree.node? location = before.tree.node? location
            else after = before
  /-- A file that cannot be decoded is gone afterwards if it can be removed.  If it was found
  through a link, the link is gone and not the file. -/
  healed : Key.IsDigits name → ∀ file failure,
    tier.OpensTo before name file →
      before.unreadable? (before.behind (tier.namedLocation before.tree name)) = none →
        Entry.decode file.bytes = .error failure →
          found = none ∧
            if before.fixed? (tier.namedLocation before.tree name) = none then
              after.tree.node? (tier.namedLocation before.tree name) = none ∧
                after.link? (tier.namedLocation before.tree name) = none ∧
                ∀ location, location ≠ tier.namedLocation before.tree name →
                  after.tree.node? location = before.tree.node? location
            else after = before
  /-- A file that cannot be read is not found and stays as it is. -/
  refused :
    before.unreadable? (before.behind (tier.namedLocation before.tree name)) ≠ none →
      after = before ∧ found = none
  /-- Where there is neither a file nor a link to one, nothing happens. -/
  noFile : (∀ file, ¬tier.OpensTo before name file) → after = before ∧ found = none

section Lookup

variable {tier : DiskTier} {tree : FileTree}

/-- A directory that is there leads to a file with a name unless the path is too long. -/
theorem leads_of_nodeAt
    {name : String} (isDirectory : tree.nodeAt tier.config.directory = .ok .directory)
    (shortPath : (tier.config.directory.child name).bytes.length ≤ longestPath) :
    tier.Leads tree name :=
  ⟨enters_of_nodeAt isDirectory, shortPath⟩

/-- The path of an entry leads to it just if its directory is there and the path is not too
long. -/
theorem reaches_iff_leads {key : Key} :
    tier.Reaches tree (tier.config.directory.locationFrom tree.working) key ↔
      tier.Leads tree key.name := by
  have shortName : key.fileName.length ≤ longestName := by
    rw [key.length_fileName]
    decide
  refine (place_child_eq_ok_iff (Key.isPlainName_of_isName key.isName_name)
    key.zero_not_mem_fileName shortName).trans ?_
  exact ⟨fun ⟨directory, short⟩ => ⟨directory, short⟩, fun leads => ⟨leads.1, leads.2⟩⟩

variable {system : FileSystem}

/-- Looking up a key reads the file that its path leads to, if that is not refused. -/
theorem fileAt_child_eq_ok_iff {key : Key} {file : File} :
    system.fileAt (tier.config.directory.child key.name) = .ok file ↔
      tier.OpensTo system key.name file ∧
        system.unreadable? (system.behind (tier.namedLocation system.tree key.name)) = none := by
  have location :
      (tier.config.directory.child key.name).locationFrom system.tree.working =
        tier.namedLocation system.tree key.name :=
    locationFrom_entry rfl key
  rw [FileSystem.fileAt_eq_ok_iff, location]
  constructor
  · rintro ⟨target, follows, reads, readable⟩
    have direct := (of_follow follows).2
    rw [location] at direct
    obtain ⟨place, walked, followed⟩ := bind_eq_ok_iff.mp follows
    have placed := eq_entry_of_place_child (Key.isPlainName_of_isName key.isName_name) walked
    refine ⟨⟨?_, fun noLink => ?_, fun destination linked => ?_⟩, readable⟩
    · rw [← reaches_iff_leads, Reaches, walked, placed]
      rfl
    · obtain rfl := direct noLink
      rw [← location]
      exact FileTree.node?_of_fileAt reads
    · rw [← location, ← location_of_place walked] at linked
      rw [linked] at followed
      cases followed
      exact reads
  · rintro ⟨opens, readable⟩
    have walked := reaches_iff_leads.mpr opens.leads
    refine
      ⟨(system.link? (tier.namedLocation system.tree key.name)).getD
          (tier.config.directory.child key.name),
        bind_eq_ok_iff.mpr ⟨_, walked, rfl⟩, ?_, readable⟩
    cases linked : system.link? (tier.namedLocation system.tree key.name) with
    | none => exact fileAt_of_place walked (opens.direct linked)
    | some destination => exact opens.linked destination linked

/-- A lookup that finds nothing and changes nothing is right where there is nothing to find. -/
theorem isConfinedLookup_refl
    {name : String}
    (missing : Key.IsDigits name → ∀ file, tier.OpensTo system name file →
      system.unreadable? (system.behind (tier.namedLocation system.tree name)) ≠ none) :
    tier.IsConfinedLookup name system system none where
  keeps := .refl system
  others _ _ _ := rfl
  links _ _ := rfl
  malformed _ := ⟨rfl, rfl⟩
  hit form file _ opens readable := absurd readable (missing form file opens)
  healed form file _ opens readable := absurd readable (missing form file opens)
  refused _ := ⟨rfl, rfl⟩
  noFile _ := ⟨rfl, rfl⟩

section Opened

variable
    {name : String} {file : File} (form : Key.IsDigits name) (opens : tier.OpensTo system name file)
    (readable : system.unreadable? (system.behind (tier.namedLocation system.tree name)) = none)

include form opens readable

/-- A file that can be decoded is marked as used unless that is refused.  Nothing else changes. -/
theorem isConfinedLookup_touched
    {styled : StyledText} (decodes : Entry.decode file.bytes = .ok styled) :
    tier.IsConfinedLookup name system
      (if system.unwritable? (system.behind (tier.namedLocation system.tree name)) = none then
        { system with
          tree :=
            system.tree.tick.put (system.behind (tier.namedLocation system.tree name))
              (.file { file with modified := system.tree.tick.clock }) }
      else system)
      (some styled) := by
  have frame (location : Location)
      (elsewhere : location ≠ system.behind (tier.namedLocation system.tree name)) :
      (system.tree.tick.put (system.behind (tier.namedLocation system.tree name))
          (.file { file with modified := system.tree.tick.clock })).node? location =
        system.tree.node? location := by
    rw [node?_put_of_ne _ _ elsewhere, node?_tick]
  refine
    { keeps := ?keeps
      others := fun location _ elsewhere => ?others
      links := fun _ _ => ?links
      malformed := fun noForm => absurd form noForm
      hit := fun _ other otherStyled opensToo _ decodesToo => ?hit
      healed := fun _ other failure opensToo _ fails => ?healed
      refused := fun unreadable => absurd readable unreadable
      noFile := fun noFile => absurd opens (noFile file) }
  case keeps =>
    split
    · exact ⟨rfl, rfl⟩
    · exact .refl system
  case others =>
    split
    · exact frame location elsewhere
    · rfl
  case links => split <;> rfl
  case hit =>
    obtain rfl := opens.unique opensToo
    cases decodes.symm.trans decodesToo
    refine ⟨rfl, ?_⟩
    split
    · have notRoot : system.behind (tier.namedLocation system.tree name) ≠ [] := by
        intro root
        have present := opens.node?_behind
        rw [root] at present
        cases present
      rw [node?_put _ _ _ notRoot, if_pos rfl]
      exact ⟨rfl, Int.lt_succ _, rfl, frame⟩
    · rfl
  case healed =>
    obtain rfl := opens.unique opensToo
    cases decodes.symm.trans fails

/-- A file that cannot be decoded is removed unless that is refused, and nothing else changes. -/
theorem isConfinedLookup_discarded
    {failure : Entry.DecodeError} (fails : Entry.decode file.bytes = .error failure) :
    tier.IsConfinedLookup name system
      (if system.fixed? (tier.namedLocation system.tree name) = none then
        system.without (tier.namedLocation system.tree name)
      else system)
      none := by
  have notRoot := namedLocation_ne_nil tier system.tree name
  refine
    { keeps := ?keeps
      others := fun location elsewhere _ => ?others
      links := fun location elsewhere => ?links
      malformed := fun noForm => absurd form noForm
      hit := fun _ other otherStyled opensToo _ decodes => ?hit
      healed := fun _ other otherFailure _ _ _ => ⟨rfl, ?healed⟩
      refused := fun unreadable => absurd readable unreadable
      noFile := fun noFile => absurd opens (noFile file) }
  case keeps =>
    split
    · exact ⟨rfl, rfl⟩
    · exact .refl system
  case others =>
    split
    · exact node?_without system elsewhere
    · rfl
  case links =>
    split
    · exact linksWithout_of_ne elsewhere
    · rfl
  case hit =>
    obtain rfl := opens.unique opensToo
    cases fails.symm.trans decodes
  case healed =>
    split
    · rw [without, node?_erase _ _ notRoot, if_pos rfl]
      exact ⟨rfl, if_pos rfl, fun location elsewhere => node?_without system elsewhere⟩
    · rfl

end Opened

end Lookup

/-- A lookup of any text keeps to the one file in the directory with that name, whatever links there
are and whatever the system refuses.  A text that is not the name of an entry is not looked for.  A
file that can be decoded is found and only its time changes; one that cannot be decoded is removed;
where there is none, or the path does not lead to it, nothing is found and nothing changes. -/
theorem find_isConfined (tier : DiskTier) (system : FileSystem) (name : String) :
    tier.IsConfinedLookup name system (tier.find system name).1 (tier.find system name).2 := by
  by_cases form : Key.IsDigits name
  case neg =>
    have noPath : tier.entryPath? name = none := if_neg (mt Key.isName_iff.mp form)
    rw [find, noPath]
    exact isConfinedLookup_refl fun form' => absurd form' form
  case pos =>
    obtain ⟨key, _, rfl⟩ := Key.exists_ofName?_of_isName (Key.isName_iff.mpr form)
    have isPath :
        tier.entryPath? key.name = some (tier.config.directory.child key.name) :=
      if_pos key.isName_name
    rw [find, isPath]
    dsimp only
    rw [readFrom]
    cases reads : system.fileAt (tier.config.directory.child key.name) with
    | error failure =>
        refine isConfinedLookup_refl fun _ file opens readable => ?_
        rw [fileAt_child_eq_ok_iff.mpr ⟨opens, readable⟩] at reads
        cases reads
    | ok file =>
        have opened := fileAt_child_eq_ok_iff.mp reads
        have touched := touch_of_fileAt reads
        have discarded := discard_of_fileAt reads
        rw [locationFrom_entry rfl] at touched discarded
        dsimp only
        cases decodes : Entry.decode file.bytes with
        | ok styled =>
            dsimp only
            rw [touched]
            exact isConfinedLookup_touched form opened.1 opened.2 decodes
        | error failure =>
            dsimp only
            rw [discarded]
            exact isConfinedLookup_discarded form opened.1 opened.2 decodes

/-- A directory with one preview and one file that is cut off. -/
def sampleDamaged : FileTree :=
  (Session.sampleTree.put
      [Text.encode "c".toList, (Session.sampleKey 0).fileName]
      (.file ⟨Entry.encode (Session.sampleStyled "1"), 0, ⟨0⟩⟩)).put
    [Text.encode "c".toList, (Session.sampleKey 1).fileName]
    (.file ⟨Entry.header, 0, ⟨0⟩⟩)

/-- The preview is found, the file that is cut off is removed, and a path out of the directory leads
nowhere. -/
theorem find_isConfined_sample :
    (Session.sampleTier.find (.plain sampleDamaged) (Session.sampleKey 0).name).2 =
        some (Session.sampleStyled "1") ∧
      (Session.sampleTier.find (.plain sampleDamaged) (Session.sampleKey 1).name).1.tree.node?
          (Session.sampleTier.namedLocation sampleDamaged (Session.sampleKey 1).name) =
        none ∧
      (Session.sampleTier.find (.plain sampleDamaged) "../work/a.json").1 =
        .plain sampleDamaged := by
  refine ⟨?hit, ?healed, ?malformed⟩
  case hit =>
    have opens :
        Session.sampleTier.OpensTo (.plain sampleDamaged) (Session.sampleKey 0).name
          ⟨Entry.encode (Session.sampleStyled "1"), 0, ⟨0⟩⟩ :=
      ⟨leads_of_nodeAt rfl (by decide +kernel), fun _ => by decide +kernel, nofun⟩
    exact
      ((find_isConfined _ _ _).hit (Session.sampleKey 0).isDigits_name _ _ opens rfl
        (by decide +kernel)).1
  case healed =>
    have opens :
        Session.sampleTier.OpensTo (.plain sampleDamaged) (Session.sampleKey 1).name
          ⟨Entry.header, 0, ⟨0⟩⟩ :=
      ⟨leads_of_nodeAt rfl (by decide +kernel), fun _ => by decide +kernel, nofun⟩
    obtain ⟨_, gone⟩ :=
      (find_isConfined _ _ _).healed (Session.sampleKey 1).isDigits_name _ .corrupt opens rfl
        (by decide +kernel)
    rw [if_pos (show (FileSystem.plain sampleDamaged).fixed? _ = none from rfl)] at gone
    exact gone.1
  case malformed =>
    have noForm : ¬Key.IsDigits "../work/a.json" := fun form =>
      absurd form.length (by decide)
    exact ((find_isConfined _ _ _).malformed noForm).1

/-- A path to the sample directory that takes many steps nowhere, so that the paths of the entries
are too long. -/
def longWay : Path :=
  ⟨0x63 :: (List.replicate 2016 [Path.slash, Path.dot]).flatten⟩

/-- A name of the sample directory that is a link to the preview there. -/
def sampleLinkedName : FileSystem :=
  { FileSystem.plain sampleDamaged with
    link? := fun location =>
      if location = [Text.encode "c".toList, (Session.sampleKey 2).fileName] then
        some (.ofString ("/c/" ++ (Session.sampleKey 0).name))
      else none }

/-- It is not enough that the directory is there.  A file that cannot be decoded stays if its path is
too long or its name cannot be removed.  A preview keeps its time if it cannot be changed, and it is
not found if it cannot be read.  A lookup through a link sets the time of another file. -/
theorem find_not_isConfined_samples :
    ((find ⟨.standard longWay, 0⟩ (.plain sampleDamaged) (Session.sampleKey 1).name).1.tree.node?
          [Text.encode "c".toList, (Session.sampleKey 1).fileName] =
        some (.file ⟨Entry.header, 0, ⟨0⟩⟩)) ∧
      ((Session.sampleTier.find
            { FileSystem.plain sampleDamaged with fixed? := fun _ => some .permissionDenied }
            (Session.sampleKey 1).name).1.tree.node?
          [Text.encode "c".toList, (Session.sampleKey 1).fileName] =
        some (.file ⟨Entry.header, 0, ⟨0⟩⟩)) ∧
      ((Session.sampleTier.find
            { FileSystem.plain sampleDamaged with
              unwritable? := fun _ => some .permissionDenied }
            (Session.sampleKey 0).name).1.tree.node?
          [Text.encode "c".toList, (Session.sampleKey 0).fileName] =
        some (.file ⟨Entry.encode (Session.sampleStyled "1"), 0, ⟨0⟩⟩)) ∧
      ((Session.sampleTier.find
            { FileSystem.plain sampleDamaged with
              unreadable? := fun _ => some .permissionDenied }
            (Session.sampleKey 0).name).2 =
        none) ∧
      (Session.sampleTier.find sampleLinkedName (Session.sampleKey 2).name).2 =
          some (Session.sampleStyled "1") ∧
        (Session.sampleTier.find sampleLinkedName (Session.sampleKey 2).name).1.tree.node?
            [Text.encode "c".toList, (Session.sampleKey 0).fileName] ≠
          some (.file ⟨Entry.encode (Session.sampleStyled "1"), 0, ⟨0⟩⟩) := by
  decide +kernel

end DiskTier

end SourcePreview
