import SourcePreview.Proofs.Cache.Key

/-!
# Keys tell previews apart

A file system gives the time of a file in whole seconds, negative before 1970, and the nanoseconds
after these.  Such times, like paths, themes and languages, can be read off the material of a key.
So two previews have the same key only if all of these are the same or if the digest does not tell
their materials apart.
-/

namespace SourcePreview

/-- Times with less than a second of nanoseconds are the same only if their seconds and
nanoseconds are. -/
theorem Timestamp.eq_of_ofSeconds_eq
    {seconds otherSeconds : Int} {nanoseconds otherNanoseconds : Nat}
    (small : nanoseconds < perSecond) (otherSmall : otherNanoseconds < perSecond)
    (same : ofSeconds seconds nanoseconds = ofSeconds otherSeconds otherNanoseconds) :
    seconds = otherSeconds ∧ nanoseconds = otherNanoseconds := by
  have total := congrArg Timestamp.nanoseconds same
  simp only [ofSeconds, perSecond] at total small otherSmall
  omega

namespace Key

/-- What a preview is made from, with the time as a file system gives it: the seconds are counted
in sixty-four bits with a sign. -/
@[ext]
structure Origin where
  path : Path
  /-- Whole seconds since the beginning of 1970. -/
  seconds : Int
  /-- Nanoseconds after these. -/
  nanoseconds : Nat
  themeId : String
  language : Language
  seconds_ge : -2 ^ 63 ≤ seconds
  seconds_lt : seconds < 2 ^ 63
  nanoseconds_lt : nanoseconds < Timestamp.perSecond

namespace Origin

/-- The modification time. -/
def modified (origin : Origin) : Timestamp :=
  .ofSeconds origin.seconds origin.nanoseconds

/-- The bytes that are digested. -/
def material (origin : Origin) : Bytes :=
  Key.material origin.path origin.modified origin.themeId origin.language

/-- The key of the preview. -/
def key (origin : Origin) : Key :=
  derive origin.path origin.modified origin.themeId origin.language

/-- Whether the lengths of the fields fit into eight bytes. -/
structure IsShort (origin : Origin) : Prop where
  path : origin.path.bytes.length < 2 ^ 64
  themeId : (Text.encode origin.themeId.toList).length < 2 ^ 64

theorem key_eq_iff {first second : Origin} :
    first.key = second.key ↔
      Sha256.digest first.material = Sha256.digest second.material := by
  rw [key, key, derive, derive, Key.mk.injEq]
  rfl

/-- Times in seconds fit into sixteen bytes when counted in nanoseconds. -/
theorem IsShort.fits {origin : Origin} (short : origin.IsShort) :
    Fits origin.path origin.modified origin.themeId := by
  have earliest := origin.seconds_ge
  have latest := origin.seconds_lt
  have small := origin.nanoseconds_lt
  simp only [Timestamp.perSecond] at small
  refine ⟨short.path, ?_, ?_, short.themeId⟩
  · simp only [modified, Timestamp.ofSeconds, Timestamp.perSecond]
    norm_num at earliest ⊢
    omega
  · simp only [modified, Timestamp.ofSeconds, Timestamp.perSecond]
    norm_num at latest ⊢
    omega

section Pair

variable
    {first second : Origin} (firstShort : first.IsShort) (secondShort : second.IsShort)

include firstShort secondShort

theorem eq_of_material_eq (same : first.material = second.material) : first = second := by
  obtain ⟨samePath, sameTime, sameTheme, sameLanguage⟩ :=
    material_inj firstShort.fits secondShort.fits same
  obtain ⟨sameSeconds, sameNanoseconds⟩ :=
    Timestamp.eq_of_ofSeconds_eq first.nanoseconds_lt second.nanoseconds_lt sameTime
  exact Origin.ext samePath sameSeconds sameNanoseconds sameTheme sameLanguage

/-- Whatever two previews differ in, the materials of their keys differ, and so do the keys unless
the digest is the same for both materials. -/
theorem material_ne_and_key_eq_iff :
    (first ≠ second → first.material ≠ second.material) ∧
      ((Sha256.digest first.material = Sha256.digest second.material →
          first.material = second.material) →
        (first.key = second.key ↔ first = second)) := by
  have differs : first ≠ second → first.material ≠ second.material :=
    fun different same => different (eq_of_material_eq firstShort secondShort same)
  refine ⟨differs, fun noCollision => ⟨fun sameKey => ?_, fun same => same ▸ rfl⟩⟩
  by_contra different
  exact differs different (noCollision (key_eq_iff.mp sameKey))

end Pair

/-- A preview of a file that was changed a nanosecond before 1970 began. -/
def sampleBefore : Origin where
  path := .ofString "/work/a.json"
  seconds := -1
  nanoseconds := 999999999
  themeId := "dark"
  language := .json
  seconds_ge := by norm_num
  seconds_lt := by norm_num
  nanoseconds_lt := by decide

/-- A preview of the file as it was changed a nanosecond later. -/
def sampleAfter : Origin :=
  { sampleBefore with
    seconds := 0
    nanoseconds := 0
    seconds_ge := by norm_num
    seconds_lt := by norm_num
    nanoseconds_lt := by decide }

/-- The two moments have different keys, although they lie in different seconds. -/
theorem material_ne_and_key_eq_iff_sample :
    sampleBefore.material ≠ sampleAfter.material ∧ sampleBefore.key ≠ sampleAfter.key := by
  have different : sampleBefore ≠ sampleAfter :=
    fun same => absurd (congrArg seconds same) (by decide)
  have beforeShort : sampleBefore.IsShort := ⟨by decide, by decide⟩
  have afterShort : sampleAfter.IsShort := ⟨by decide, by decide⟩
  obtain ⟨materials, keys⟩ := material_ne_and_key_eq_iff beforeShort afterShort
  refine ⟨materials different, fun same => different ((keys fun digests => ?_).mp same)⟩
  exact absurd digests (by decide +kernel)

end Origin

end Key

end SourcePreview
