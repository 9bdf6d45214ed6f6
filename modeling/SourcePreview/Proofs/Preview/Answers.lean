import SourcePreview.Proofs.Highlight.Run
import SourcePreview.Proofs.Preview.Replies
import SourcePreview.Proofs.Theme.Loading

/-!
# Answers with and without a cache

A request is found in the cache, or it is highlighted and goes into memory, or it ends in another
way and leaves the cache as it is.  What it is answered without any cache is determined by the
request and the themes.  If what the cache knows agrees with that, then so does every answer that
is found in the cache or comes from the highlighter, and afterwards the cache still agrees.
-/

namespace SourcePreview

open FileTree

namespace Request

/-- The text of a request with all its spans, in the colours of a palette. -/
def styledWith (request : Request) (palette : Palette) : StyledText :=
  .highlighted request.actualLanguage request.text
    (Highlight.spans request.actualLanguage request.text) palette

/-- What a request is answered without any cache. -/
def cacheless
    (request : Request) (environment : Environment) (tree : FileTree) : StyledText :=
  request.styledWith (Theme.loadOrFallback environment tree request.themeId).palette

end Request

namespace Previewer

variable
    {previewer after : Previewer} {tree changed : FileTree} {request : Request}
    {outcome : Outcome}

/-- A request that is not in the cache is highlighted and goes into memory, or it ends in another
way and leaves the cache as it is. -/
theorem compute_cases
    (computes : previewer.compute tree request = (after, outcome))
    (finds : previewer.highlighter.FindsPatterns) :
    after.environment = previewer.environment ∧
      after.palettes = (previewer.palette tree request.themeId).1.palettes ∧
      (∀ tier, outcome.status ≠ .cacheHit tier) ∧
      ((outcome =
            ⟨request.styledWith (previewer.palette tree request.themeId).2,
              .highlighted⟩ ∧
          after.cache = previewer.cache.remember request.key outcome.styled) ∨
        (outcome.status ≠ .highlighted ∧ after.cache = previewer.cache)) := by
  obtain ⟨isUncached, environment, palettes, kept⟩ := compute_spec computes
  refine ⟨environment, palettes, ?_⟩
  rcases request.uncached_cases previewer.highlighter
      (previewer.palette tree request.themeId).2 with
    ⟨spans, finishes, highlighted⟩ | ⟨notHighlighted, noHit⟩
  · rw [isUncached, highlighted] at kept ⊢
    refine ⟨nofun, Or.inl ⟨?_, kept⟩⟩
    rw [finds.spans finishes]
    rfl
  · rw [← isUncached] at notHighlighted noHit
    rw [Cache.keep_of_ne_highlighted notHighlighted] at kept
    exact ⟨noHit, Or.inr ⟨notHighlighted, kept⟩⟩

/-- A request is found in the cache as claimed, or it is looked for in vain and then computed. -/
theorem answer_cases
    {directory : Location} {claim : PreviewClaim}
    (answers : previewer.answer tree request = (after, changed, outcome))
    (finds : previewer.highlighter.FindsPatterns)
    (isIn : previewer.cache.IsIn tree.working directory)
    (memory : previewer.cache.memory.Holds claim)
    (entries : tree.EntriesHold directory claim) :
    after.environment = previewer.environment ∧
      after.cache.disk = previewer.cache.disk ∧
      ((∃ tier,
          outcome.status = .cacheHit tier ∧ claim request.key outcome.styled ∧
            after.cache.memory.Holds claim ∧
            after.palettes = previewer.palettes ∧
            after.counters.highlights = previewer.counters.highlights ∧
            KeepsEntries directory tree changed) ∨
        ((∀ tier, outcome.status ≠ .cacheHit tier) ∧
          previewer.cache.lookup tree request.key =
            (previewer.cache, changed, none) ∧
          after.palettes =
            (previewer.palette changed request.themeId).1.palettes ∧
          ((outcome =
                ⟨request.styledWith
                    (previewer.palette changed request.themeId).2,
                  .highlighted⟩ ∧
              after.cache =
                previewer.cache.remember request.key outcome.styled) ∨
            (outcome.status ≠ .highlighted ∧
              after.cache = previewer.cache)))) := by
  unfold answer at answers
  dsimp only at answers
  split at answers
  · next cache used styled tier looks =>
      cases answers
      obtain ⟨sameDisk, memory, keeps, holdsHere⟩ :=
        Cache.lookup_eq_some memory
          (fun disk present => (isIn disk present).symm ▸ entries) looks
      exact
        ⟨rfl, sameDisk,
          Or.inl ⟨tier, rfl, holdsHere, memory, rfl, rfl, keeps directory⟩⟩
  · next cache used looks =>
      obtain ⟨rfl, _⟩ := Cache.lookup_eq_none isIn looks
      obtain ⟨afterIs, others⟩ := Prod.mk.inj answers
      obtain ⟨rfl, outcomeIs⟩ := Prod.mk.inj others
      have computes :
          (previewer.count fun counters =>
              { counters with requests := counters.requests + 1 }).compute used
            request = (after, outcome) :=
        Prod.ext afterIs outcomeIs
      obtain ⟨environment, palettes, noHit, shown⟩ := compute_cases computes finds
      obtain ⟨samePalette, samePalettes⟩ :=
        @palette_congr
          (previewer.count fun counters =>
            { counters with requests := counters.requests + 1 })
          previewer rfl rfl used request.themeId
      rw [samePalettes] at palettes
      rw [samePalette] at shown
      refine ⟨environment, ?_, Or.inr ⟨noHit, looks, palettes, shown⟩⟩
      rcases shown with ⟨_, cache⟩ | ⟨_, cache⟩
      · rw [cache]
        rfl
      · rw [cache]
        rfl

/-- Whether the palettes that a process remembers are those of their themes. -/
def PalettesAre (previewer : Previewer) (paletteOf : String → Palette) : Prop :=
  ∀ id palette, previewer.palettes.lookup id = some palette → palette = paletteOf id

/-- Asking for a palette gives that of the theme, which may be remembered. -/
theorem PalettesAre.palette
    {paletteOf : String → Palette} (known : previewer.PalettesAre paletteOf)
    {id : String}
    (themed :
      (Theme.loadOrFallback previewer.environment tree id).palette = paletteOf id) :
    (previewer.palette tree id).2 = paletteOf id ∧
      (previewer.palette tree id).1.PalettesAre paletteOf := by
  unfold Previewer.palette
  split
  · next palette remembered => exact ⟨known id palette remembered, known⟩
  · unfold Theme.loadOrFallback at themed
    split
    · next theme loads =>
        rw [loads] at themed
        refine ⟨themed, fun other palette remembered => ?_⟩
        rw [List.lookup_cons] at remembered
        split at remembered
        · next same =>
            cases remembered
            rw [beq_iff_eq.mp same]
            exact themed
        · exact known other palette remembered
    · next failure loads =>
        rw [loads] at themed
        exact ⟨themed, known⟩

/-- What a process knows: its disk tier is in a directory, and its memory and its palettes are
as claimed. -/
structure Knows
    (previewer : Previewer) (working directory : Location)
    (claim : PreviewClaim) (paletteOf : String → Palette) : Prop where
  isIn : previewer.cache.IsIn working directory
  memory : previewer.cache.memory.Holds claim
  palettes : previewer.PalettesAre paletteOf

/-- If a process knows nothing but what is answered without a cache, then it shows that, and
afterwards it still knows nothing else. -/
theorem Knows.answer
    {directory : Location} {claim : PreviewClaim} {paletteOf : String → Palette}
    (knows : previewer.Knows tree.working directory claim paletteOf)
    (finds : previewer.highlighter.FindsPatterns)
    (entries : tree.EntriesHold directory claim)
    (themed :
      (Theme.loadOrFallback previewer.environment tree request.themeId).palette =
        paletteOf request.themeId)
    (permits :
      claim request.key (request.cacheless previewer.environment tree))
    (answers : previewer.answer tree request = (after, changed, outcome)) :
    after.environment = previewer.environment ∧
      after.Knows tree.working directory claim paletteOf ∧
      changed.EntriesHold directory claim ∧
      (outcome.status.isCacheHit = true → claim request.key outcome.styled) ∧
      (outcome.status = .highlighted →
        outcome.styled = request.cacheless previewer.environment tree) := by
  obtain ⟨environment, sameDisk, shown⟩ :=
    answer_cases answers finds knows.isIn knows.memory entries
  refine ⟨environment, ?_⟩
  have isIn : after.cache.IsIn tree.working directory := by
    rw [Cache.IsIn, sameDisk]
    exact knows.isIn
  rcases shown with
    ⟨tier, hit, holdsHere, memory, palettes, _, keeps⟩ |
      ⟨noHit, looks, palettes, ended⟩
  · refine
      ⟨⟨isIn, memory, ?_⟩, entries.of_loses keeps.loses, fun _ => holdsHere,
        fun highlighted => ?_⟩
    · rw [PalettesAre, palettes]
      exact knows.palettes
    · rw [hit] at highlighted
      cases highlighted
  · obtain ⟨_, shape⟩ := Cache.lookup_eq_none knows.isIn looks
    have changedEntries : changed.EntriesHold directory claim := by
      rcases shape with rfl | ⟨file, _, _, rfl⟩
      · exact entries
      · exact entries.of_loses (losesEntries_erase tree directory _)
    -- The one file that may be gone was no theme, because it was no text of one.
    have sameTheme :
        Theme.loadOrFallback previewer.environment changed request.themeId =
          Theme.loadOrFallback previewer.environment tree request.themeId := by
      rcases shape with rfl | ⟨file, present, _, rfl⟩
      · rfl
      · unfold Theme.loadOrFallback
        rw [Theme.load_erase_entry present]
    rw [← sameTheme] at themed
    obtain ⟨paletteIs, known⟩ := knows.palettes.palette themed
    have palettesAfter : after.PalettesAre paletteOf := by
      rw [PalettesAre, palettes]
      exact known
    have noCacheHit : outcome.status.isCacheHit ≠ true := by
      cases status : outcome.status with
      | cacheHit tier => exact absurd status (noHit tier)
      | highlighted | unsupported | degraded => exact Bool.false_ne_true
    rcases ended with ⟨rfl, cache⟩ | ⟨notHighlighted, cache⟩
    · have same :
          request.styledWith (previewer.palette changed request.themeId).2 =
            request.cacheless previewer.environment tree := by
        rw [Request.cacheless, ← sameTheme, themed, paletteIs]
      refine
        ⟨⟨isIn, ?_, palettesAfter⟩, changedEntries,
          fun hit => absurd hit noCacheHit, fun _ => same⟩
      rw [cache]
      exact knows.memory.set (same ▸ permits)
    · refine
        ⟨⟨isIn, ?_, palettesAfter⟩, changedEntries,
          fun hit => absurd hit noCacheHit,
          fun highlighted => absurd highlighted notHighlighted⟩
      rw [cache]
      exact knows.memory

end Previewer

end SourcePreview
