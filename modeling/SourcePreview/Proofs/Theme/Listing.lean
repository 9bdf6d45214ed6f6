import SourcePreview.Proofs.FileTree.Names
import SourcePreview.Proofs.Theme.Loading
import SourcePreview.Proofs.Yaml.Fields

/-!
# Themes that are listed and themes that are loaded

The list of themes is made by going through the directory for themes, and a theme is loaded by the
path that its name gives.  The list takes files with either of two extensions, the first one for
each name, and loading looks for one extension only; so a theme that is listed from a file with the
other extension is not the one that its name loads.  In all other cases the two agree.
-/

namespace SourcePreview

namespace Theme

open FileTree

/-! ### The order of names -/

/-- In a list in order, the first element with some property is the least one. -/
theorem find?_eq_some_iff_of_pairwise
    {names : List Bytes} (sorted : names.Pairwise (· ≤ ·)) {wanted : Bytes → Bool}
    {name : Bytes} :
    names.find? wanted = some name ↔
      name ∈ names ∧ wanted name ∧ ∀ other ∈ names, wanted other → name ≤ other := by
  induction names with
  | nil => simp
  | cons first names ih =>
      obtain ⟨least, sorted⟩ := List.pairwise_cons.mp sorted
      by_cases isWanted : wanted first
      · rw [List.find?_cons_of_pos isWanted, Option.some.injEq]
        constructor
        · rintro rfl
          refine ⟨List.mem_cons_self, isWanted, fun other member _ => ?_⟩
          rcases List.mem_cons.mp member with rfl | member
          · exact List.le_refl _
          · exact least other member
        · rintro ⟨member, _, first_le⟩
          rcases List.mem_cons.mp member with rfl | member
          · rfl
          · exact List.le_antisymm (least name member)
              (first_le first List.mem_cons_self isWanted)
      · rw [List.find?_cons_of_neg isWanted, ih sorted]
        have skips (property : Bytes → Prop) :
            (∀ other ∈ first :: names, wanted other → property other) ↔
              ∀ other ∈ names, wanted other → property other := by
          simp [isWanted]
        rw [skips]
        refine and_congr_left fun ⟨passes, _⟩ => ?_
        rw [List.mem_cons, or_iff_right]
        rintro rfl
        exact isWanted passes

/-- The names of a directory that are gone through one after the other. -/
theorem pairwise_sortedNames (tree : FileTree) (directory : Path) :
    (sortedNames tree directory).Pairwise (· ≤ ·) := by
  rw [sortedNames]
  split
  · refine (List.pairwise_mergeSort ?_ ?_ _).imp of_decide_eq_true
    · intro first second third before after
      exact decide_eq_true (List.le_trans (of_decide_eq_true before) (of_decide_eq_true after))
    · intro left right
      simpa using List.le_total left right
  · exact List.Pairwise.nil

theorem mem_sortedNames_iff {tree : FileTree} {directory : Path} {name : Bytes} :
    name ∈ sortedNames tree directory ↔
      ∃ names, tree.list directory = .ok names ∧ name ∈ names := by
  rw [sortedNames]
  split
  · next names lists => simp [lists]
  · next failure lists => simp [lists]

/-! ### Files of themes -/

/-- The extensions of theme files. -/
def extensions : List String := ["yaml", "yml"]

/-- The name of a theme file. -/
def fileName (id extension : String) : Bytes :=
  Text.encode id.toList ++ Path.dot :: Text.encode extension.toList

theorem fileName_yaml (id : String) : fileName id "yaml" = Text.encode (id ++ ".yaml").toList := by
  rw [String.toList_append, Text.encode_append]
  rfl

/-- A file gives its theme the name that stands in front of one of the extensions. -/
theorem idOfFile?_eq_some_iff {file : Bytes} {id : String} :
    idOfFile? file = some id ↔
      id ≠ "" ∧ ∃ extension ∈ extensions, file = fileName id extension := by
  have listed (part : Bytes) :
      (part = Text.encode "yaml".toList ∨ part = Text.encode "yml".toList) ↔
        ∃ extension ∈ extensions, part = Text.encode extension.toList := by
    simp [extensions]
  have noDot : ∀ extension ∈ extensions, Path.dot ∉ Text.encode extension.toList := by decide
  have nonempty : id ≠ "" ↔ Text.encode id.toList ≠ [] := by
    rw [Ne, Ne, ← Text.encode_nil, Text.encode_injective.eq_iff, String.toList_eq_nil_iff]
  have decodes (stem : Bytes) :
      (Text.decode? stem).map String.ofList = some id ↔ stem = Text.encode id.toList := by
    rw [Option.map_eq_some_iff, ← Text.decode?_eq_some_iff]
    constructor
    · rintro ⟨characters, decodes, rfl⟩
      rwa [String.toList_ofList]
    · intro decodes
      exact ⟨id.toList, decodes, String.ofList_toList⟩
  constructor
  · intro gives
    rw [idOfFile?] at gives
    split at gives
    · next stem part split =>
        obtain ⟨stemNonempty, _, rfl⟩ := Path.splitName_eq_iff.mp split
        rw [Option.ite_none_right_eq_some, listed, decodes] at gives
        obtain ⟨⟨extension, member, rfl⟩, rfl⟩ := gives
        exact ⟨nonempty.mpr stemNonempty, extension, member, rfl⟩
    · cases gives
  · rintro ⟨isNonempty, extension, member, rfl⟩
    have split :
        Path.splitName (fileName id extension) =
          (Text.encode id.toList, some (Text.encode extension.toList)) :=
      Path.splitName_eq_iff.mpr ⟨nonempty.mp isNonempty, noDot _ member, rfl⟩
    rw [idOfFile?, split]
    simp only [listed]
    rw [if_pos ⟨extension, member, rfl⟩, decodes]

/-- Whether a file in the directory for themes is that of a theme. -/
structure IsThemeFile (environment : Environment) (tree : FileTree) (id : String)
    (directory : Path) (name : Bytes) : Prop where
  themes : environment.themesDirectory? = some directory
  listed : ∃ names, tree.list directory = .ok names ∧ name ∈ names
  nonempty : id ≠ ""
  named : ∃ extension ∈ extensions, name = fileName id extension

theorem isThemeFile_iff
    {environment : Environment} {tree : FileTree} {id : String} {directory : Path}
    {name : Bytes} :
    IsThemeFile environment tree id directory name ↔
      environment.themesDirectory? = some directory ∧
        name ∈ sortedNames tree directory ∧ idOfFile? name = some id := by
  rw [mem_sortedNames_iff, idOfFile?_eq_some_iff]
  constructor
  · rintro ⟨themes, listed, nonempty, named⟩
    exact ⟨themes, listed, nonempty, named⟩
  · rintro ⟨themes, listed, nonempty, named⟩
    exact ⟨themes, listed, nonempty, named⟩

/-! ### What entries are listed from -/

/-- What a theme is listed from. -/
inductive Origin where
  /-- A file in a directory. -/
  | file (directory : Path) (name : Bytes)
  /-- A document that is there without a file. -/
  | shipped (theme : ShippedTheme)

/-- The theme that an origin describes. -/
def Origin.theme (tree : FileTree) : Origin → Except ThemeError Theme
  | .file directory name => ofFile tree (directory.join ⟨name⟩)
  | .shipped theme => theme.document.resolve

/-- What an entry may be listed from: of the files for its name the first, or else a shipped
theme. -/
inductive IsListedFrom (environment : Environment) (tree : FileTree) :
    ThemeEntry → Origin → Prop
  | user {id : String} {directory : Path} {name : Bytes}
      (isFile : IsThemeFile environment tree id directory name)
      (first : ∀ other, IsThemeFile environment tree id directory other → name ≤ other) :
      IsListedFrom environment tree
        ⟨id, listedName id ((Origin.file directory name).theme tree), .user⟩
        (.file directory name)
  | shipped {theme : ShippedTheme}
      (member : theme ∈ ShippedTheme.all)
      (noFile : ∀ directory name, ¬IsThemeFile environment tree theme.id directory name) :
      IsListedFrom environment tree
        ⟨theme.id, listedName theme.id ((Origin.shipped theme).theme tree), .shipped⟩
        (.shipped theme)

/-- Of the files for a name the first one has an entry. -/
theorem mem_userEntries_iff
    {tree : FileTree} {directory : Path} {seen : List String} {files : List Bytes}
    {entry : ThemeEntry} :
    entry ∈ userEntries tree directory seen files ↔
      entry.id ∉ seen ∧
        ∃ name,
          files.find? (fun file => decide (idOfFile? file = some entry.id)) = some name ∧
            entry =
              ⟨entry.id, listedName entry.id ((Origin.file directory name).theme tree),
                .user⟩ := by
  induction files generalizing seen with
  | nil => simp [userEntries]
  | cons file files ih =>
      by_cases gives : idOfFile? file = some entry.id
      · rw [List.find?_cons_of_pos (by simpa using gives), userEntries, gives]
        dsimp only
        split
        · next old => simp [ih, old]
        · next new =>
            rw [List.mem_cons, ih]
            simp [new, Origin.theme]
      · rw [List.find?_cons_of_neg (by simpa using gives), ← ih, userEntries]
        split
        · next id isId =>
            have different : entry.id ≠ id := by
              rintro rfl
              exact gives isId
            split
            · rfl
            · rw [List.mem_cons, or_iff_right (by rintro rfl; exact different rfl), ih, ih,
                List.mem_cons, or_iff_right different]
        · rfl

/-- The entries of the user are listed from files. -/
theorem mem_userThemes_iff
    {environment : Environment} {tree : FileTree} {entry : ThemeEntry} :
    entry ∈ userThemes environment tree ↔
      ∃ directory name, IsListedFrom environment tree entry (.file directory name) := by
  have sorted := pairwise_sortedNames tree
  constructor
  · intro member
    cases themes : environment.themesDirectory? with
    | none => simp [userThemes, themes] at member
    | some directory =>
        rw [userThemes, themes, mem_userEntries_iff] at member
        obtain ⟨-, name, found, isEntry⟩ := member
        obtain ⟨listed, gives, least⟩ :=
          (find?_eq_some_iff_of_pairwise (sorted directory)).mp found
        rw [isEntry]
        refine ⟨directory, name, .user ?_ fun other isFile => ?_⟩
        · exact isThemeFile_iff.mpr ⟨themes, listed, of_decide_eq_true gives⟩
        · obtain ⟨_, otherListed, otherGives⟩ := isThemeFile_iff.mp isFile
          exact least other otherListed (decide_eq_true otherGives)
  · rintro ⟨directory, name, fromFile⟩
    cases fromFile with
    | user isFile first =>
        obtain ⟨themes, listed, gives⟩ := isThemeFile_iff.mp isFile
        rw [userThemes, themes, mem_userEntries_iff]
        refine ⟨List.not_mem_nil, name, ?_, rfl⟩
        refine (find?_eq_some_iff_of_pairwise (sorted directory)).mpr
          ⟨listed, decide_eq_true gives, fun other otherListed otherGives => ?_⟩
        exact first other (isThemeFile_iff.mpr ⟨themes, otherListed, of_decide_eq_true otherGives⟩)

/-- Every name of a theme that has a file is listed from a file. -/
theorem exists_mem_userThemes_iff
    {environment : Environment} {tree : FileTree} {id : String} :
    (∃ entry ∈ userThemes environment tree, entry.id = id) ↔
      ∃ directory name, IsThemeFile environment tree id directory name := by
  constructor
  · rintro ⟨entry, member, rfl⟩
    obtain ⟨directory, name, fromFile⟩ := mem_userThemes_iff.mp member
    cases fromFile with
    | user isFile first => exact ⟨directory, name, isFile⟩
  · rintro ⟨directory, name, isFile⟩
    obtain ⟨themes, listed, gives⟩ := isThemeFile_iff.mp isFile
    have found :
        ((sortedNames tree directory).find? fun file =>
          decide (idOfFile? file = some id)).isSome := by
      rw [List.find?_isSome]
      exact ⟨name, listed, decide_eq_true gives⟩
    obtain ⟨first, found⟩ := Option.isSome_iff_exists.mp found
    refine ⟨⟨id, listedName id ((Origin.file directory first).theme tree), .user⟩, ?_, rfl⟩
    rw [userThemes, themes, mem_userEntries_iff]
    exact ⟨List.not_mem_nil, first, found, rfl⟩

/-- A list has an entry for everything that there is to list, and no other entries. -/
theorem mem_listAll_iff
    {environment : Environment} {tree : FileTree} {entry : ThemeEntry} :
    entry ∈ listAll environment tree ↔
      ∃ origin, IsListedFrom environment tree entry origin := by
  have unseen (theme : ShippedTheme) :
      ((userThemes environment tree).all fun entry => entry.id != theme.id) = true ↔
        ∀ directory name, ¬IsThemeFile environment tree theme.id directory name := by
    have seen := not_congr (@exists_mem_userThemes_iff environment tree theme.id)
    simpa using seen
  rw [listAll, List.mem_append, mem_userThemes_iff, List.mem_map]
  constructor
  · rintro (⟨directory, name, fromFile⟩ | ⟨theme, member, rfl⟩)
    · exact ⟨_, fromFile⟩
    · rw [List.mem_filter, unseen] at member
      exact ⟨_, .shipped member.1 member.2⟩
  · rintro ⟨origin, fromOrigin⟩
    cases fromOrigin with
    | user isFile first => exact .inl ⟨_, _, .user isFile first⟩
    | shipped member noFile =>
        exact .inr ⟨_, List.mem_filter.mpr ⟨member, (unseen _).mpr noFile⟩, rfl⟩

/-! ### What names load -/

theorem join_fileName_yaml (directory : Path) (id : String) :
    directory.join ⟨fileName id "yaml"⟩ = directory.child (id ++ ".yaml") := by
  rw [fileName_yaml]
  rfl

/-- The name of a theme file without a slash leads to nothing but the file. -/
theorem isPlainName_fileName_yaml {id : String} (noSlash : Path.slash ∉ Text.encode id.toList) :
    Path.IsPlainName (Text.encode (id ++ ".yaml").toList) := by
  refine ⟨Path.Component.ofPiece?_of_getLast? (getLast?_fileName id) (by decide), ?_⟩
  rw [String.toList_append, Text.encode_append, List.mem_append, not_or]
  exact ⟨noSlash, by decide⟩

theorem fileName_yaml_ne_yml (id other : String) : fileName id "yaml" ≠ fileName other "yml" := by
  intro same
  have parts := congrArg Path.lastPart same
  rw [fileName, fileName, Path.lastPart_append (by decide),
    Path.lastPart_append (by decide)] at parts
  exact absurd parts (by decide)

/-- Of two files for a name the one that can be loaded comes first. -/
theorem fileName_yaml_lt_yml (id : String) : fileName id "yaml" < fileName id "yml" :=
  List.append_left_lt (by decide)

theorem userFile?_eq_some_iff
    {environment : Environment} {tree : FileTree} {id : String} {path : Path} :
    userFile? environment tree id = some path ↔
      ∃ directory,
        environment.themesDirectory? = some directory ∧
          directory.child (id ++ ".yaml") = path ∧ tree.isPresent path := by
  rw [userFile?, Option.filter_eq_some_iff, Option.map_eq_some_iff]
  constructor
  · rintro ⟨⟨directory, themes, isPath⟩, present⟩
    exact ⟨directory, themes, isPath, present⟩
  · rintro ⟨directory, themes, isPath, present⟩
    exact ⟨⟨directory, themes, isPath⟩, present⟩

/-- What is loaded from a file is listed, if it has the name of a file. -/
theorem isThemeFile_of_userFile?
    {environment : Environment} {tree : FileTree} {id : String} {path : Path}
    (nonempty : id ≠ "") (noSlash : Path.slash ∉ Text.encode id.toList)
    (found : userFile? environment tree id = some path) :
    ∃ directory, IsThemeFile environment tree id directory (fileName id "yaml") := by
  obtain ⟨directory, themes, rfl, present⟩ := userFile?_eq_some_iff.mp found
  refine ⟨directory, themes, ?_, nonempty, "yaml", by decide, rfl⟩
  rw [fileName_yaml]
  obtain ⟨configured, rfl⟩ : ∃ configured : Path, configured.child "themes" = directory := by
    rw [Environment.themesDirectory?, Option.map_eq_some_iff] at themes
    obtain ⟨configured, _, isDirectory⟩ := themes
    exact ⟨configured, isDirectory⟩
  have folderPlain : Path.IsPlainName (Text.encode "themes".toList) :=
    ⟨by decide, by decide⟩
  cases there : tree.nodeAt ((configured.child "themes").child (id ++ ".yaml")) with
  | error failure =>
      rw [isPresent, there] at present
      cases present
  | ok node =>
      exact exists_list_of_nodeAt_child (isPlainName_fileName_yaml noSlash) folderPlain there

/-- A file that is listed is loaded from its path, if that can be walked. -/
theorem userFile?_of_isThemeFile
    {environment : Environment} {tree : FileTree} (names : tree.HasFileNames) {id : String}
    {directory : Path} (isFile : IsThemeFile environment tree id directory (fileName id "yaml"))
    (short : (directory.join ⟨fileName id "yaml"⟩).bytes.length ≤ longestPath) :
    userFile? environment tree id = some (directory.join ⟨fileName id "yaml"⟩) := by
  obtain ⟨themes, ⟨all, lists, listed⟩, _, _⟩ := isFile
  have isDirectory := nodeAt_of_list_eq_ok lists
  rw [list_of_nodeAt isDirectory] at lists
  cases lists
  have fileNamed := names.isFileName listed
  obtain ⟨node, here⟩ := exists_node?_of_mem_childNames listed
  have plain : Path.IsPlainName (Text.encode (id ++ ".yaml").toList) := by
    refine isPlainName_fileName_yaml fun slash => fileNamed.noSlash ?_
    exact List.mem_append_left _ slash
  rw [join_fileName_yaml] at short ⊢
  rw [fileName_yaml] at fileNamed here
  have walked := place_child_of_nodeAt isDirectory plain fileNamed.noZero fileNamed.short short
  refine userFile?_eq_some_iff.mpr ⟨directory, themes, rfl, ?_⟩
  have there : tree.nodeAt (directory.child (id ++ ".yaml")) = .ok node := by
    simp only [nodeAt, walked, bind, Except.bind, Place.location, here]
    cases node <;> rfl
  rw [isPresent, there]
  rfl

/-- Shipped themes have different names. -/
theorem load_shipped_id {theme : ShippedTheme} (member : theme ∈ ShippedTheme.all) :
    ShippedTheme.load theme.id = theme.document.resolve := by
  simp only [ShippedTheme.all, List.mem_cons, List.not_mem_nil, or_false] at member
  rcases member with rfl | rfl | rfl | rfl <;> rfl

/-! ### What is listed and what is loaded -/

/-- The files that loading passes over: those with the other extension, and those whose paths are
too long. -/
def Origin.IsOverlooked : Origin → Prop
  | .file directory name =>
    (∃ id, name = fileName id "yml") ∨ longestPath < (directory.join ⟨name⟩).bytes.length
  | .shipped _ => False

/-- Whether the name of an entry loads what the entry shows. -/
structure LoadsAsListed (environment : Environment) (tree : FileTree) (entry : ThemeEntry)
    (origin : Origin) : Prop where
  /-- If the entry was listed from a theme, a theme with the name of the entry is loaded. -/
  name : ∀ theme, origin.theme tree = .ok theme →
    ∃ loaded, load environment tree entry.id = .ok loaded ∧ loaded.name = entry.name
  /-- An entry is one of the user if a file of the user is loaded. -/
  source : entry.source = .user ↔ (userFile? environment tree entry.id).isSome

section Listed

variable
    {environment : Environment} {tree : FileTree} {id : String} {directory : Path}
    {name : Bytes}

/-- A file for a name has one of two names. -/
theorem IsThemeFile.eq_or_eq (isFile : IsThemeFile environment tree id directory name) :
    name = fileName id "yaml" ∨ name = fileName id "yml" := by
  obtain ⟨extension, member, isName⟩ := isFile.named
  simp only [extensions, List.mem_cons, List.not_mem_nil, or_false] at member
  rcases member with rfl | rfl
  · exact .inl isName
  · exact .inr isName

/-- A file that loading does not pass over is the one that its name loads. -/
theorem userFile?_of_not_isOverlooked
    (names : tree.HasFileNames) (isFile : IsThemeFile environment tree id directory name)
    (seen : ¬(Origin.file directory name).IsOverlooked) :
    userFile? environment tree id = some (directory.join ⟨name⟩) := by
  obtain ⟨noSpare, short⟩ := not_or.mp seen
  rcases isFile.eq_or_eq with rfl | rfl
  · exact userFile?_of_isThemeFile names isFile (Nat.le_of_not_lt short)
  · exact (noSpare ⟨id, rfl⟩).elim

/-- If the first file for a name is passed over, no file of the user is loaded. -/
theorem userFile?_of_isOverlooked
    (names : tree.HasFileNames) (isFile : IsThemeFile environment tree id directory name)
    (first : ∀ other, IsThemeFile environment tree id directory other → name ≤ other)
    (overlooked : (Origin.file directory name).IsOverlooked) :
    userFile? environment tree id = none := by
  rw [← Option.not_isSome_iff_eq_none, Option.isSome_iff_exists]
  rintro ⟨path, found⟩
  have noSlash : Path.slash ∉ Text.encode id.toList := by
    obtain ⟨all, lists, listed⟩ := isFile.listed
    rw [list_of_nodeAt (nodeAt_of_list_eq_ok lists)] at lists
    cases lists
    intro slash
    refine (names.isFileName listed).noSlash ?_
    rcases isFile.eq_or_eq with rfl | rfl <;> exact List.mem_append_left _ slash
  obtain ⟨other, loaded⟩ := isThemeFile_of_userFile? isFile.nonempty noSlash found
  obtain rfl : directory = other := Option.some.inj (isFile.themes.symm.trans loaded.themes)
  rcases isFile.eq_or_eq with rfl | rfl
  · rcases overlooked with ⟨other, isSpare⟩ | long
    · exact fileName_yaml_ne_yml id other isSpare
    · obtain ⟨folder, themes, rfl, present⟩ := userFile?_eq_some_iff.mp found
      obtain rfl : directory = folder := Option.some.inj (isFile.themes.symm.trans themes)
      rw [join_fileName_yaml] at long
      exact Nat.not_le_of_lt long (length_le_of_isPresent present)
  · exact List.not_lt.mpr (first _ loaded) (fileName_yaml_lt_yml id)

/-- Where a shipped theme has no file, no file of the user is loaded. -/
theorem userFile?_of_noFile
    {theme : ShippedTheme} (member : theme ∈ ShippedTheme.all)
    (noFile : ∀ directory name, ¬IsThemeFile environment tree theme.id directory name) :
    userFile? environment tree theme.id = none := by
  have ids :
      ∀ theme ∈ ShippedTheme.all,
        theme.id ≠ "" ∧ Path.slash ∉ Text.encode theme.id.toList := by
    decide
  obtain ⟨nonempty, noSlash⟩ := ids theme member
  rw [← Option.not_isSome_iff_eq_none, Option.isSome_iff_exists]
  rintro ⟨path, found⟩
  obtain ⟨directory, loaded⟩ := isThemeFile_of_userFile? nonempty noSlash found
  exact noFile _ _ loaded

end Listed

/-- A list shows all themes that there are, and each of them is the one that its name loads, unless
it was listed from a file that loading passes over.  The name of such a theme loads the shipped
theme of that name, if there is one. -/
theorem mem_listAll_iff_and_loadsAsListed
    (environment : Environment) (tree : FileTree) (names : tree.HasFileNames)
    (entry : ThemeEntry) :
    (entry ∈ listAll environment tree ↔
        ∃ origin, IsListedFrom environment tree entry origin) ∧
      ∀ origin, IsListedFrom environment tree entry origin →
        (¬origin.IsOverlooked →
            load environment tree entry.id = origin.theme tree ∧
              LoadsAsListed environment tree entry origin) ∧
          (origin.IsOverlooked →
            entry.source = .user ∧ userFile? environment tree entry.id = none ∧
              load environment tree entry.id = ShippedTheme.load entry.id) := by
  refine ⟨mem_listAll_iff, fun origin fromOrigin => ?_⟩
  cases fromOrigin with
  | @user id directory name isFile first =>
      refine ⟨fun seen => ?_, fun overlooked => ?_⟩
      · have found := userFile?_of_not_isOverlooked names isFile seen
        have loads : load environment tree id = (Origin.file directory name).theme tree := by
          rw [load, found]
          rfl
        refine ⟨loads, fun theme isTheme => ⟨theme, loads.trans isTheme, ?_⟩, ?_⟩
        · rw [isTheme]
          rfl
        · simp [found]
      · have none := userFile?_of_isOverlooked names isFile first overlooked
        refine ⟨rfl, none, ?_⟩
        rw [load, none]
  | @shipped theme member noFile =>
      have none := userFile?_of_noFile member noFile
      have loads : load environment tree theme.id = (Origin.shipped theme).theme tree := by
        rw [load, none]
        exact load_shipped_id member
      refine
        ⟨fun _ => ⟨loads, fun found isTheme => ⟨found, loads.trans isTheme, ?_⟩, ?_⟩, False.elim⟩
      · rw [isTheme]
        rfl
      · simp [none]

/-- The fields of a theme of black and white. -/
def sampleMembers : List (String × Yaml.Value) :=
  [("version", .word "1"), ("name", .text "Solar"), ("background", .text "#000000"),
    ("foreground", .text "#FFFFFF")]

/-- The file of the theme. -/
def sampleFile : File :=
  ⟨Text.encode (Yaml.printRecord sampleMembers).toList, 0, ⟨0⟩⟩

/-- Settings below the root. -/
def sampleEnvironment : Environment :=
  ⟨none, none, some (.ofString "/g"), none, none⟩

/-- The directory for themes. -/
def sampleDirectory : Path :=
  ((Path.ofString "/g").child "glance").child "themes"

/-- The directory for themes with two files, one with each extension. -/
def sampleTree : FileTree :=
  let location := sampleDirectory.locationFrom []
  (((FileTree.empty ⟨0⟩).createDirectories sampleDirectory).1.put
    (location ++ [fileName "solar" "yml"]) (.file sampleFile)).put
      (location ++ [fileName "lunar" "yaml"]) (.file sampleFile)

/-- The files of the sample. -/
def sampleFiles : List Bytes :=
  [fileName "lunar" "yaml", fileName "solar" "yml"]

theorem list_sampleTree : sampleTree.list sampleDirectory = .ok sampleFiles := by
  rfl

/-- The file of a theme of the sample. -/
def sampleOrigin (id extension : String) : Origin :=
  .file sampleDirectory (fileName id extension)

/-- The entry of a theme of the sample. -/
def sampleEntry (id extension : String) : ThemeEntry :=
  ⟨id, listedName id ((sampleOrigin id extension).theme sampleTree), .user⟩

theorem isListedFrom_lunar :
    IsListedFrom sampleEnvironment sampleTree (sampleEntry "lunar" "yaml")
      (sampleOrigin "lunar" "yaml") := by
  have isFile :
      IsThemeFile sampleEnvironment sampleTree "lunar" sampleDirectory
        (fileName "lunar" "yaml") :=
    ⟨rfl, ⟨_, list_sampleTree, by decide⟩, by decide, "yaml", by decide, rfl⟩
  refine .user isFile fun other otherFile => ?_
  rcases otherFile.eq_or_eq with rfl | rfl
  · exact List.le_refl _
  · exact List.le_of_lt (fileName_yaml_lt_yml "lunar")

theorem isListedFrom_solar :
    IsListedFrom sampleEnvironment sampleTree (sampleEntry "solar" "yml")
      (sampleOrigin "solar" "yml") := by
  have isFile :
      IsThemeFile sampleEnvironment sampleTree "solar" sampleDirectory
        (fileName "solar" "yml") :=
    ⟨rfl, ⟨_, list_sampleTree, by decide⟩, by decide, "yml", by decide, rfl⟩
  refine .user isFile fun other otherFile => ?_
  rcases otherFile.eq_or_eq with rfl | rfl
  · obtain ⟨names, lists, listed⟩ := otherFile.listed
    rw [list_sampleTree] at lists
    cases lists
    exact absurd listed (by decide)
  · exact List.le_refl _

theorem hasFileNames_sampleTree : sampleTree.HasFileNames := by
  decide +kernel

theorem mem_listAll_iff_and_loadsAsListed_sample :
    sampleTree.HasFileNames ∧
      load sampleEnvironment sampleTree "lunar" = (sampleOrigin "lunar" "yaml").theme sampleTree ∧
      (∃ entry ∈ listAll sampleEnvironment sampleTree, entry.id = "solar") ∧
      userFile? sampleEnvironment sampleTree "solar" = none ∧
      load sampleEnvironment sampleTree "solar" = .error (.unknown "solar") := by
  have names := hasFileNames_sampleTree
  obtain ⟨-, agrees⟩ :=
    mem_listAll_iff_and_loadsAsListed sampleEnvironment sampleTree names
      (sampleEntry "lunar" "yaml")
  obtain ⟨isListed, passesOver⟩ :=
    mem_listAll_iff_and_loadsAsListed sampleEnvironment sampleTree names
      (sampleEntry "solar" "yml")
  have seen : ¬(sampleOrigin "lunar" "yaml").IsOverlooked := by
    rintro (⟨id, isSpare⟩ | long)
    · exact fileName_yaml_ne_yml "lunar" id isSpare
    · exact absurd long (by decide)
  have overlooked : (sampleOrigin "solar" "yml").IsOverlooked := .inl ⟨"solar", rfl⟩
  obtain ⟨loads, -⟩ := (agrees _ isListedFrom_lunar).1 seen
  obtain ⟨-, none, unknown⟩ := (passesOver _ isListedFrom_solar).2 overlooked
  exact ⟨names, loads, ⟨_, isListed.mpr ⟨_, isListedFrom_solar⟩, rfl⟩, none, unknown⟩

theorem parse?_sampleMembers :
    ThemeDocument.parse? (Yaml.printRecord sampleMembers) =
      ThemeDocument.ofNode? ⟨.mapping (Yaml.Value.memberNodes sampleMembers), []⟩
        (.mapping (Yaml.Value.memberNodes sampleMembers)) := by
  have writable : Yaml.Value.AreWritable sampleMembers := by
    refine Yaml.Value.areWritable_of_forall fun name value inside => ?_
    simp only [sampleMembers, List.mem_cons, List.not_mem_nil, or_false, Prod.mk.injEq] at inside
    rcases inside with ⟨rfl, rfl⟩ | ⟨rfl, rfl⟩ | ⟨rfl, rfl⟩ | ⟨rfl, rfl⟩
    · refine ⟨by decide +kernel, by decide +kernel, ?_⟩
      rw [Yaml.Value.IsWritable]
      decide +kernel
    all_goals exact ⟨by decide +kernel, by decide +kernel, Yaml.Value.isWritable_text _⟩
  have notEmpty : sampleMembers ≠ [] := List.cons_ne_nil _ _
  rw [ThemeDocument.parse?, Yaml.Document.parse?_printRecord notEmpty writable]
  rfl

theorem exists_theme_solar :
    ∃ theme, (sampleOrigin "solar" "yml").theme sampleTree = .ok theme ∧ theme.name = "Solar" := by
  have found :
      sampleTree.fileAt (sampleDirectory.join ⟨fileName "solar" "yml"⟩) = .ok sampleFile := by
    rfl
  have reads :
      (sampleOrigin "solar" "yml").theme sampleTree =
        ofText (Yaml.printRecord sampleMembers) := by
    simp only [sampleOrigin, Origin.theme, ofFile, readText, found, bind, Except.bind, sampleFile,
      File.bytes, List.replicate_zero, List.append_nil, Text.decode?_encode,
      String.ofList_toList]
    rfl
  have described :
      (ThemeDocument.parse? (Yaml.printRecord sampleMembers)).map
          (fun document => document.resolve.toOption.map (·.name)) =
        some (some "Solar") := by
    rw [parse?_sampleMembers]
    decide +kernel
  obtain ⟨document, isDocument, resolves⟩ := Option.map_eq_some_iff.mp described
  rw [reads, ofText, isDocument]
  dsimp only
  cases resolved : document.resolve with
  | error failure =>
      rw [resolved] at resolves
      cases resolves
  | ok theme =>
      rw [resolved] at resolves
      exact ⟨theme, rfl, Option.some.inj resolves⟩

/-- A theme that is listed from a file with the other extension cannot be loaded by its name. -/
theorem not_loadsAsListed_of_other_extension :
    ¬∀ (environment : Environment) (tree : FileTree), tree.HasFileNames →
        ∀ entry ∈ listAll environment tree, ∀ origin,
          IsListedFrom environment tree entry origin →
            LoadsAsListed environment tree entry origin := by
  intro agrees
  have fromFile := isListedFrom_solar
  obtain ⟨theme, describes, -⟩ := exists_theme_solar
  have loadsAsListed :=
    agrees _ _ hasFileNames_sampleTree _ (mem_listAll_iff.mpr ⟨_, fromFile⟩) _ fromFile
  obtain ⟨loaded, loads, -⟩ := loadsAsListed.name theme describes
  have fails : load sampleEnvironment sampleTree "solar" = .error (.unknown "solar") := by
    rfl
  cases loads.symm.trans fails

end Theme

end SourcePreview
