import SourcePreview.Cache.Disk
import SourcePreview.Proofs.Cache.Key
import Mathlib.Data.Set.Function

/-!
# Keys and names of entries

The entry of a key has the written form of the key for its name, and the key is read from the name
by cutting this into pairs of digits.  Only the check of the form, which comes first, keeps the cuts
between characters and inside the text.  The main statement is that writing takes the keys one to
one to the texts that pass the check and that reading leads back, so that different keys have
different entry files and no entry file belongs to more than one key or to none.
-/

namespace SourcePreview.Key

/-- Writing takes the keys one to one to the texts of the form of a name. -/
theorem bijOn_name : Set.BijOn name Set.univ {text | isName text = true} := by
  refine ⟨fun key _ => key.isName_name, name_injective.injOn, fun text isName => ?_⟩
  obtain ⟨key, written⟩ := exists_name_eq_of_isName isName
  exact ⟨key, Set.mem_univ key, written⟩

/-- A text that is cut somewhere else than between its characters is torn. -/
example : readBytes "aéb" 0 1 = .error .torn := by
  decide +kernel

/-- The name of a key is that of its entry. -/
theorem entryPath?_name (tier : DiskTier) (key : Key) :
    tier.entryPath? key.name = some (tier.config.directory.child key.name) := by
  rw [DiskTier.entryPath?, if_pos key.isName_name]

/-- Below one directory, different keys lead to different locations. -/
theorem locationFrom_entryPath?_injective (tier : DiskTier) (working : Location) :
    Function.Injective fun key : Key =>
      (tier.entryPath? key.name).map (Path.locationFrom working) := by
  intro left right same
  simp only [entryPath?_name, Option.map_some, Option.some.injEq] at same
  rw [Path.locationFrom_child _ _ (isPlainName_of_isName left.isName_name),
    Path.locationFrom_child _ _ (isPlainName_of_isName right.isName_name)] at same
  exact fileName_injective (List.singleton_inj.mp (List.append_cancel_left same))

/-- Keys and names correspond one to one, and reading is the inverse of writing: it succeeds for
names only, gives the key with that name, and tears no text.  So entries of different keys are
different files, and every text that is taken for the name of an entry is the name of one key. -/
theorem bijOn_name_and_read :
    Set.BijOn name Set.univ {text | isName text = true} ∧
      (∀ key : Key, read key.name = .ok key) ∧
      (∀ text : String,
        ((∃ key, read text = .ok key) ↔ isName text = true) ∧
          read text ≠ .error .torn ∧
          ∀ key, read text = .ok key → key.name = text) ∧
      ∀ tier : DiskTier,
        (∀ working : Location,
          Function.Injective fun key : Key =>
            (tier.entryPath? key.name).map (Path.locationFrom working)) ∧
        ∀ text, (tier.entryPath? text).isSome → ∃! key : Key, key.name = text := by
  refine ⟨bijOn_name, read_name, fun text => ?reads, fun tier => ⟨?apart, fun text isEntry => ?one⟩⟩
  case reads =>
    rcases read_eq text with ⟨key, rfl, reads⟩ | ⟨isOther, refuses⟩
    · rw [reads]
      refine ⟨⟨fun _ => key.isName_name, fun _ => ⟨key, rfl⟩⟩, nofun, fun other same => ?_⟩
      rw [Except.ok.inj same]
    · rw [refuses, isOther]
      exact ⟨⟨nofun, nofun⟩, nofun, nofun⟩
  case apart => exact locationFrom_entryPath?_injective tier
  case one =>
    rw [DiskTier.entryPath?, Option.isSome_ite] at isEntry
    obtain ⟨key, written⟩ := exists_name_eq_of_isName isEntry
    exact ⟨key, written, fun other same => name_injective (same.trans written.symm)⟩

/-- Sixty-four digits. -/
def sampleName : String :=
  "00112233445566778899aabbccddeeff00112233445566778899aabbccddeeff"

theorem bijOn_name_and_read_sample :
    (∃ key, read sampleName = .ok key) ∧
      (∃! key : Key, key.name = sampleName) ∧
      ¬∃ key, read sampleName.toUpper = .ok key := by
  obtain ⟨-, -, reads, entries⟩ := bijOn_name_and_read
  have isName : isName sampleName = true := by decide +kernel
  have isOther : ¬Key.isName sampleName.toUpper = true := by decide +kernel
  have isEntry : ((⟨.standard ⟨[]⟩, 0⟩ : DiskTier).entryPath? sampleName).isSome := by
    rwa [DiskTier.entryPath?, Option.isSome_ite]
  exact
    ⟨(reads sampleName).1.mpr isName, (entries _).2 sampleName isEntry,
      fun found => isOther ((reads _).1.mp found)⟩

end SourcePreview.Key
