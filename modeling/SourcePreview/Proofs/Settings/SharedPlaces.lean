import SourcePreview.Proofs.FileTree.Locations
import SourcePreview.Settings

/-!
# Places that all processes share

Variables of the environment say where the settings, the themes, the logs and the finished previews
are.  As long as none of the two variables for the directories of all programs is set to nothing,
these places are absolute paths, which lead to the same location from every working directory.  The
variable for finished previews counts as unset if it is empty, and so does that for the home
directory.  The other two do not: an empty one stands for the working directory, so that processes
with different working directories have places of their own.
-/

namespace SourcePreview

namespace Path

/-- Whether a path leads to the same location from every working directory. -/
structure IsShared (path : Path) : Prop where
  isAbsolute : path.isAbsolute = true
  location : ∀ working, path.locationFrom working = path.locationFrom []

/-- Whether a path leads to a location below each working directory. -/
structure IsLocal (path : Path) : Prop where
  isRelative : path.isAbsolute = false
  location : ∀ working, path.locationFrom working = working ++ path.locationFrom []

theorem isShared_of_isAbsolute {path : Path} (isAbsolute : path.isAbsolute = true) :
    path.IsShared := by
  refine ⟨isAbsolute, fun working => ?_⟩
  rw [locationFrom, locationFrom, if_pos isAbsolute, if_pos isAbsolute]

theorem isLocal_empty : IsLocal ⟨[]⟩ :=
  ⟨rfl, fun working => (List.append_nil working).symm⟩

theorem ne_empty_of_isAbsolute {path : Path} (isAbsolute : path.isAbsolute = true) :
    path ≠ ⟨[]⟩ := by
  rintro rfl
  cases isAbsolute

section Child

variable {directory : Path} {name : String} (plain : IsPlainName (Text.encode name.toList))

include plain

theorem isAbsolute_child : (directory.child name).isAbsolute = directory.isAbsolute := by
  obtain ⟨_, -, sameStart, -⟩ := exists_piecesFrom_child directory plain
  exact sameStart

theorem IsShared.child (isShared : directory.IsShared) : (directory.child name).IsShared :=
  isShared_of_isAbsolute ((isAbsolute_child plain).trans isShared.isAbsolute)

theorem IsLocal.child (isLocal : directory.IsLocal) : (directory.child name).IsLocal := by
  refine ⟨(isAbsolute_child plain).trans isLocal.isRelative, fun working => ?_⟩
  rw [locationFrom_child _ _ plain, locationFrom_child _ _ plain, isLocal.location,
    List.append_assoc]

end Child

end Path

namespace Environment

/-- Whether a value of a variable is missing, empty or an absolute path. -/
def IsUnsetOrRooted (value : Option Path) : Prop :=
  ∀ path ∈ value, path = ⟨[]⟩ ∨ path.isAbsolute = true

/-- Whether the home directory is an absolute path, and every other variable is one unless it is
unset or empty. -/
structure IsRooted (environment : Environment) : Prop where
  home : ∃ path, environment.home = some path ∧ path.isAbsolute = true
  configHome : IsUnsetOrRooted environment.configHome
  cacheHome : IsUnsetOrRooted environment.cacheHome
  previewCache : IsUnsetOrRooted environment.previewCache

/-- Whether nothing but a variable that is set to nothing says where the finished previews are. -/
def LeavesCacheOpen (environment : Environment) (configured : Option Path) : Prop :=
  (environment.previewCache = none ∨ environment.previewCache = some ⟨[]⟩) ∧
    configured = none ∧ environment.cacheHome = some ⟨[]⟩

/-- Whether a path is found that all processes share, unless something is left open: then it is
one below the working directory. -/
def Finds (isOpen : Prop) (found : Option Path) : Prop :=
  ∃ path, found = some path ∧ (¬isOpen → path.IsShared) ∧ (isOpen → path.IsLocal)

theorem Finds.child
    {isOpen : Prop} {found : Option Path} (finds : Finds isOpen found) {name : String}
    (plain : Path.IsPlainName (Text.encode name.toList)) :
    Finds isOpen (found.map (·.child name)) := by
  obtain ⟨path, rfl, isShared, isLocal⟩ := finds
  refine ⟨path.child name, rfl, fun decided => ?_, fun left => ?_⟩
  · exact (isShared decided).child plain
  · exact (isLocal left).child plain

/-- An absolute path is shared, as long as it leaves nothing open. -/
theorem finds_of_isAbsolute
    {isOpen : Prop} {path : Path} (isAbsolute : path.isAbsolute = true) (decided : ¬isOpen) :
    Finds isOpen (some path) :=
  ⟨path, rfl, fun _ => Path.isShared_of_isAbsolute isAbsolute, fun left => (decided left).elim⟩

theorem isPlainName_programDirectory :
    Path.IsPlainName (Text.encode programDirectory.toList) :=
  ⟨by decide, by decide⟩

section Rooted

variable {environment : Environment} (rooted : environment.IsRooted)

include rooted

theorem exists_homeDirectory? :
    ∃ path, environment.homeDirectory? = some path ∧ path.isAbsolute = true := by
  obtain ⟨path, isHome, isAbsolute⟩ := rooted.home
  have notEmpty := Path.ne_empty_of_isAbsolute isAbsolute
  exact ⟨path, by simp [homeDirectory?, isHome, notEmpty], isAbsolute⟩

/-- The directory for something of all programs is left open by a variable that is set to
nothing. -/
theorem finds_value_or_home
    {value : Option Path} (given : IsUnsetOrRooted value) {name : String}
    (plain : Path.IsPlainName (Text.encode name.toList)) :
    Finds (value = some ⟨[]⟩) (value.or (environment.homeDirectory?.map (·.child name))) := by
  cases value with
  | none =>
      obtain ⟨home, isHome, isAbsolute⟩ := exists_homeDirectory? rooted
      rw [isHome]
      exact finds_of_isAbsolute ((Path.isAbsolute_child plain).trans isAbsolute) nofun
  | some path =>
      rcases given path rfl with rfl | isAbsolute
      · exact ⟨⟨[]⟩, rfl, fun decided => (decided rfl).elim, fun _ => Path.isLocal_empty⟩
      · refine finds_of_isAbsolute isAbsolute fun isEmpty => ?_
        exact Path.ne_empty_of_isAbsolute isAbsolute (Option.some.inj isEmpty)

theorem finds_configDirectory? :
    Finds (environment.configHome = some ⟨[]⟩) environment.configDirectory? := by
  have base : Path.IsPlainName (Text.encode ".config".toList) := ⟨by decide, by decide⟩
  exact (finds_value_or_home rooted rooted.configHome base).child isPlainName_programDirectory

theorem finds_defaultCacheDirectory? :
    Finds (environment.cacheHome = some ⟨[]⟩) environment.defaultCacheDirectory? := by
  have base : Path.IsPlainName (Text.encode ".cache".toList) := ⟨by decide, by decide⟩
  have last : Path.IsPlainName (Text.encode "highlights".toList) := ⟨by decide, by decide⟩
  have own := (finds_value_or_home rooted rooted.cacheHome base).child isPlainName_programDirectory
  have finds := own.child last
  rwa [Option.map_map] at finds

/-- The directory for finished previews is left open only if nothing goes before the default. -/
theorem finds_cacheDirectory?
    {configured : Option Path} (given : ∀ path ∈ configured, path.isAbsolute = true) :
    Finds (environment.LeavesCacheOpen configured) (environment.cacheDirectory? configured) := by
  have withoutVariable (unset : environment.previewCache.filter (· ≠ ⟨[]⟩) = none) :
      Finds (configured = none ∧ environment.cacheHome = some ⟨[]⟩)
        (environment.cacheDirectory? configured) := by
    rw [cacheDirectory?, unset, Option.none_or]
    cases configured with
    | none => simpa using finds_defaultCacheDirectory? rooted
    | some path => exact finds_of_isAbsolute (given path rfl) (by simp)
  cases value : environment.previewCache with
  | none => simpa [LeavesCacheOpen, value] using withoutVariable (by rw [value]; rfl)
  | some path =>
      rcases rooted.previewCache path value with rfl | isAbsolute
      · simpa [LeavesCacheOpen, value] using withoutVariable (by rw [value]; rfl)
      · have notEmpty := Path.ne_empty_of_isAbsolute isAbsolute
        have found : environment.cacheDirectory? configured = some path := by
          simp [cacheDirectory?, value, notEmpty]
        rw [found]
        exact finds_of_isAbsolute isAbsolute (by simp [LeavesCacheOpen, value, notEmpty])

end Rooted

end Environment

/-- A place that is looked for by every process of a user. -/
inductive SharedPlace where
  /-- The directory for settings. -/
  | configuration
  /-- The file of the settings. -/
  | settingsFile
  /-- The directory for themes. -/
  | themes
  /-- The directory for logs. -/
  | logs
  /-- The directory for finished previews if nothing else is said. -/
  | defaultCache
  /-- The directory for finished previews where an override may be configured. -/
  | cache (configured : Option Path)
  /-- The directory for finished previews of a user with some settings. -/
  | cacheOf (settings : Settings)

namespace SharedPlace

/-- The path that a process finds. -/
def path? (environment : Environment) : SharedPlace → Option Path
  | .configuration => environment.configDirectory?
  | .settingsFile => environment.settingsFile?
  | .themes => environment.themesDirectory?
  | .logs => environment.logsDirectory?
  | .defaultCache => environment.defaultCacheDirectory?
  | .cache configured => environment.cacheDirectory? configured
  | .cacheOf settings => settings.cacheDirectory? environment

/-- The path that is configured for the place. -/
def override? : SharedPlace → Option Path
  | .cache configured => configured
  | .cacheOf settings => settings.cacheDirectory.map Path.ofString
  | _ => none

/-- Whether the variable that decides about the place is set to nothing. -/
def IsOpen (environment : Environment) : SharedPlace → Prop
  | .configuration | .settingsFile | .themes | .logs => environment.configHome = some ⟨[]⟩
  | .defaultCache => environment.cacheHome = some ⟨[]⟩
  | .cache configured => environment.LeavesCacheOpen configured
  | .cacheOf settings =>
    environment.LeavesCacheOpen (settings.cacheDirectory.map Path.ofString)

/-- Where the home directory is absolute, and each of the other variables and the override is so
unless it is missing or, as a variable, empty, every place is found.  It is an absolute path, and so
the same location from every working directory, unless the variable that decides is set to nothing:
then it is a relative path, and a location below the working directory. -/
theorem exists_path?_isShared_or_isLocal
    (environment : Environment) (rooted : environment.IsRooted) (place : SharedPlace)
    (given : ∀ path ∈ place.override?, path.isAbsolute = true) :
    ∃ path,
      place.path? environment = some path ∧
        (¬place.IsOpen environment → path.IsShared) ∧
        (place.IsOpen environment → path.IsLocal) := by
  have config := Environment.finds_configDirectory? rooted
  have file : Path.IsPlainName (Text.encode "config.yaml".toList) := ⟨by decide, by decide⟩
  have themes : Path.IsPlainName (Text.encode "themes".toList) := ⟨by decide, by decide⟩
  have logs : Path.IsPlainName (Text.encode "logs".toList) := ⟨by decide, by decide⟩
  cases place with
  | configuration => exact config
  | settingsFile => exact config.child file
  | themes => exact config.child themes
  | logs => exact config.child logs
  | defaultCache => exact Environment.finds_defaultCacheDirectory? rooted
  | cache configured => exact Environment.finds_cacheDirectory? rooted given
  | cacheOf settings => exact Environment.finds_cacheDirectory? rooted given

/-- A home directory, a directory for the caches of all programs, and two variables that are set to
nothing. -/
def sampleEnvironment : Environment where
  home := some (.ofString "/h")
  accountHome := none
  configHome := some ⟨[]⟩
  cacheHome := some (.ofString "/c")
  previewCache := some ⟨[]⟩

theorem isRooted_sampleEnvironment : sampleEnvironment.IsRooted := by
  refine ⟨⟨_, rfl, by decide⟩, ?_, ?_, ?_⟩
  · rintro path ⟨⟩
    exact .inl rfl
  · rintro path ⟨⟩
    exact .inr (by decide)
  · rintro path ⟨⟩
    exact .inl rfl

theorem exists_path?_isShared_or_isLocal_sample :
    sampleEnvironment.IsRooted ∧
      (∃ path, sampleEnvironment.cacheDirectory? none = some path ∧ path.IsShared) ∧
      ∃ path, sampleEnvironment.logsDirectory? = some path ∧ path.IsLocal := by
  have rooted := isRooted_sampleEnvironment
  obtain ⟨cache, isCache, isShared, -⟩ :=
    exists_path?_isShared_or_isLocal _ rooted (.cache none) (by simp [override?])
  obtain ⟨logs, isLogs, -, isLocal⟩ :=
    exists_path?_isShared_or_isLocal _ rooted .logs (by simp [override?])
  have decided : ¬(SharedPlace.cache none).IsOpen sampleEnvironment := by
    rintro ⟨-, -, isEmpty⟩
    exact absurd isEmpty (by decide)
  exact ⟨rooted, ⟨cache, isCache, isShared decided⟩, logs, isLogs, isLocal rfl⟩

/-- A variable that is set to nothing leads each process to a directory of its own. -/
theorem not_isAbsolute_of_empty_variable :
    ¬∀ (environment : Environment), environment.IsRooted → ∀ place : SharedPlace,
        (∀ path ∈ place.override?, path.isAbsolute = true) →
          ∃ path, place.path? environment = some path ∧ path.isAbsolute = true := by
  intro allAbsolute
  obtain ⟨path, found, isAbsolute⟩ :=
    allAbsolute _ isRooted_sampleEnvironment .configuration (by simp [override?])
  have relative : sampleEnvironment.configDirectory? = some (.ofString "glance") := by
    decide
  cases found.symm.trans relative
  exact absurd isAbsolute (by decide)

end SharedPlace

end SourcePreview
