import SourcePreview.Preview.Previewer
import SourcePreview.Proofs.Cache.Tiers

/-!
# What an answer depends on

A process remembers palettes and counts what it does, but of all this only the palette of the theme
goes into an answer.  Apart from it an answer is made of the cache, the tree, the request and what
the highlighter does with the text, and only a highlighted text goes into the cache.
-/

namespace SourcePreview

/-- The bytes that are digested for the key of a request. -/
def Request.material (request : Request) : Bytes :=
  Key.material request.path request.modified request.themeId request.actualLanguage

/-- Requests with the same key are alike in all that goes into keys, unless the digest does not tell
their materials apart. -/
theorem Request.fields_eq_of_key_eq
    {first second : Request}
    (fits : Key.Fits first.path first.modified first.themeId)
    (otherFits : Key.Fits second.path second.modified second.themeId)
    (noCollision : Sha256.digest first.material = Sha256.digest second.material →
      first.material = second.material)
    (sameKey : first.key = second.key) :
    first.path = second.path ∧ first.modified = second.modified ∧
      first.themeId = second.themeId ∧ first.actualLanguage = second.actualLanguage := by
  apply Key.material_inj fits otherFits
  apply noCollision
  exact congrArg Key.bytes sameKey

/-- What a request ends in that is not in the cache. -/
def Request.uncached
    (request : Request) (highlighter : Highlighter) (palette : Palette) : Outcome :=
  let language := request.actualLanguage
  if !highlighter.supports language then
    ⟨.highlighted language request.text [] palette, .unsupported⟩
  else if request.maxLines < request.lineCount then
    ⟨.withoutSpans language request.text palette,
      .degraded (.tooManyLines request.lineCount request.maxLines)⟩
  else
    match (highlighter.run language request.text request.deadline).spans? with
    | none => ⟨.withoutSpans language request.text palette, .degraded .deadlineExceeded⟩
    | some spans => ⟨.highlighted language request.text spans palette, .highlighted⟩

namespace Cache

/-- The cache after a request that was not in it. -/
def keep (cache : Cache) (request : Request) (outcome : Outcome) : Cache :=
  match outcome.status with
  | .highlighted => cache.remember request.key outcome.styled
  | _ => cache

/-- What a cache and a highlighter make of a request, in the colours of a palette. -/
def reply
    (cache : Cache) (tree : FileTree) (request : Request) (highlighter : Highlighter)
    (palette : Palette) : Cache × FileTree × Outcome :=
  match cache.lookup tree request.key with
  | (cache, tree, some (styled, tier)) => (cache, tree, ⟨styled, .cacheHit tier⟩)
  | (cache, tree, none) =>
    let outcome := request.uncached highlighter palette
    (cache.keep request outcome, tree, outcome)

theorem keep_of_ne_highlighted
    {outcome : Outcome} (notHighlighted : outcome.status ≠ .highlighted) (cache : Cache)
    (request : Request) :
    cache.keep request outcome = cache := by
  unfold keep
  split
  · next highlighted => exact absurd highlighted notHighlighted
  · rfl

theorem disk_keep (cache : Cache) (request : Request) (outcome : Outcome) :
    (cache.keep request outcome).disk = cache.disk := by
  unfold keep
  split <;> rfl

end Cache

namespace Request

variable (request : Request) (highlighter : Highlighter) (palette : Palette)

/-- What is not in the cache is highlighted with spans that the highlighter gave, or ends in another
way, but not as found. -/
theorem uncached_cases :
    (∃ spans,
      (highlighter.run request.actualLanguage request.text request.deadline).spans? =
          some spans ∧
        request.uncached highlighter palette =
          ⟨.highlighted request.actualLanguage request.text spans palette,
            .highlighted⟩) ∨
      ((request.uncached highlighter palette).status ≠ .highlighted ∧
        ∀ tier, (request.uncached highlighter palette).status ≠ .cacheHit tier) := by
  unfold uncached
  dsimp only
  split
  · exact Or.inr ⟨nofun, nofun⟩
  split
  · exact Or.inr ⟨nofun, nofun⟩
  split
  · exact Or.inr ⟨nofun, nofun⟩
  · next spans finishes => exact Or.inl ⟨spans, finishes, rfl⟩

/-- A request that is not in the cache is answered in the colours of the palette. -/
@[simp]
theorem palette_uncached : (request.uncached highlighter palette).styled.palette = palette := by
  unfold uncached
  dsimp only
  repeat' split
  all_goals rfl

/-- A request that is not in the cache is answered with its own text. -/
@[simp]
theorem text_uncached : (request.uncached highlighter palette).styled.text = request.text := by
  unfold uncached
  dsimp only
  repeat' split
  all_goals rfl

@[simp]
theorem isCacheHit_uncached :
    (request.uncached highlighter palette).status.isCacheHit = false := by
  unfold uncached
  dsimp only
  repeat' split
  all_goals rfl

end Request

/-- A reply was found, or it is made without the cache and the tree stays as it is, if every entry
of the key of the request can be decoded. -/
theorem Cache.reply_cases
    {cache after : Cache} {tree changed : FileTree} {request : Request}
    {highlighter : Highlighter} {palette : Palette} {outcome : Outcome}
    (decodable : ∀ disk, cache.disk = some disk → ∀ bytes,
      tree.entryAt? (disk.config.directory.locationFrom tree.working) request.key =
          some bytes →
        ∃ styled, Entry.decode bytes = .ok styled)
    (replies : cache.reply tree request highlighter palette = (after, changed, outcome)) :
    (∃ tier,
      outcome.status = .cacheHit tier ∧
        cache.lookup tree request.key = (after, changed, some (outcome.styled, tier))) ∨
      (changed = tree ∧ outcome = request.uncached highlighter palette ∧
        after = cache.keep request outcome) := by
  unfold reply at replies
  split at replies
  · next used read styled tier looks =>
      cases replies
      exact Or.inl ⟨tier, rfl, looks⟩
  · next used read looks =>
      cases replies
      obtain ⟨rfl, rfl⟩ := eq_of_lookup_eq_none decodable looks
      exact Or.inr ⟨rfl, rfl, rfl⟩

namespace Previewer

variable
    {previewer after : Previewer} {tree changed : FileTree} {request : Request}
    {outcome : Outcome}

/-- Asking for a palette changes nothing but the palettes that are remembered. -/
theorem exists_palette_fst_eq
    (previewer : Previewer) (tree : FileTree) (id : String) :
    ∃ palettes, (previewer.palette tree id).1 = { previewer with palettes } := by
  unfold palette
  split
  · exact ⟨previewer.palettes, rfl⟩
  · split
    · exact ⟨_, rfl⟩
    · exact ⟨previewer.palettes, rfl⟩

/-- Asking for a palette gives the one that is remembered, or else that of the theme. -/
theorem palette_snd (previewer : Previewer) (tree : FileTree) (id : String) :
    (previewer.palette tree id).2 =
      (previewer.palettes.lookup id).getD
        (Theme.loadOrFallback previewer.environment tree id).palette := by
  unfold palette Theme.loadOrFallback
  cases previewer.palettes.lookup id with
  | some palette => rfl
  | none => cases Theme.load previewer.environment tree id <;> rfl

/-- Asking for a palette remembers that of the theme if it is loaded for it, and forgets none. -/
theorem lookup_palette_fst
    (previewer : Previewer) (tree : FileTree) (id other : String) :
    (previewer.palette tree id).1.palettes.lookup other =
      (previewer.palettes.lookup other).or
        (if id = other then
          (Theme.load previewer.environment tree other).toOption.map Theme.palette
        else none) := by
  by_cases same : id = other
  · subst same
    rw [if_pos rfl]
    unfold palette
    cases remembered : previewer.palettes.lookup id with
    | some palette => simp [remembered]
    | none =>
        cases Theme.load previewer.environment tree id with
        | ok theme => simp [Except.toOption]
        | error failure => simp [remembered, Except.toOption]
  · rw [if_neg same, Option.or_none]
    unfold palette
    split
    · rfl
    · split
      · rw [List.lookup_cons, beq_eq_false_iff_ne.mpr (Ne.symm same)]
      · rfl

/-- The palette of a theme depends on the palettes that are remembered and on where themes are. -/
theorem palette_congr
    {first second : Previewer} (environment : first.environment = second.environment)
    (palettes : first.palettes = second.palettes) (tree : FileTree) (id : String) :
    (first.palette tree id).2 = (second.palette tree id).2 ∧
      (first.palette tree id).1.palettes = (second.palette tree id).1.palettes := by
  unfold palette
  rw [environment, palettes]
  split
  · exact ⟨rfl, palettes⟩
  · split
    · exact ⟨rfl, rfl⟩
    · exact ⟨rfl, palettes⟩

/-- A request that is not in the cache is computed with the palette of its theme, which may be
remembered then. -/
theorem compute_spec
    (computes : previewer.compute tree request = (after, outcome)) :
    outcome =
        request.uncached previewer.highlighter
          (previewer.palette tree request.themeId).2 ∧
      after.environment = previewer.environment ∧
      after.palettes = (previewer.palette tree request.themeId).1.palettes ∧
      after.cache = previewer.cache.keep request outcome := by
  obtain ⟨palettes, changed⟩ := exists_palette_fst_eq previewer tree request.themeId
  unfold compute at computes
  cases asked : previewer.palette tree request.themeId with
  | mk asker palette =>
  rw [asked] at changed computes
  subst changed
  dsimp only at computes ⊢
  unfold Request.uncached
  dsimp only
  split at computes
  · next unsupported =>
      cases computes
      rw [if_pos unsupported]
      exact ⟨rfl, rfl, rfl, rfl⟩
  next supported =>
  rw [if_neg supported]
  split at computes
  · next tooLong =>
      cases computes
      rw [if_pos tooLong]
      exact ⟨rfl, rfl, rfl, rfl⟩
  next short =>
  rw [if_neg short]
  unfold highlight count at computes
  dsimp only at computes
  cases finishes :
      (previewer.highlighter.run request.actualLanguage request.text
        request.deadline).spans? with
  | none =>
      rw [finishes] at computes
      cases computes
      exact ⟨rfl, rfl, rfl, rfl⟩
  | some spans =>
      rw [finishes] at computes
      cases computes
      exact ⟨rfl, rfl, rfl, rfl⟩

/-- An answer was found in the cache, or the cache was looked through in vain and the answer is made
in the palette of the theme, which may be remembered then. -/
theorem answer_spec
    (answers : previewer.answer tree request = (after, changed, outcome)) :
    after.environment = previewer.environment ∧
      ((∃ tier,
          outcome.status = .cacheHit tier ∧
            previewer.cache.lookup tree request.key =
              (after.cache, changed, some (outcome.styled, tier)) ∧
            after.palettes = previewer.palettes) ∨
        ∃ cache,
          previewer.cache.lookup tree request.key = (cache, changed, none) ∧
            outcome =
              request.uncached previewer.highlighter
                (previewer.palette changed request.themeId).2 ∧
            after.palettes = (previewer.palette changed request.themeId).1.palettes ∧
            after.cache = cache.keep request outcome) := by
  unfold answer at answers
  dsimp only at answers
  split at answers
  · next cache used styled tier looks =>
      cases answers
      exact ⟨rfl, Or.inl ⟨tier, rfl, looks, rfl⟩⟩
  · next cache used looks =>
      obtain ⟨afterIs, others⟩ := Prod.mk.inj answers
      obtain ⟨rfl, outcomeIs⟩ := Prod.mk.inj others
      obtain ⟨outcomeIs, environment, palettes, kept⟩ :=
        compute_spec (Prod.ext afterIs outcomeIs)
      obtain ⟨samePalette, samePalettes⟩ :=
        @palette_congr
          { previewer.count fun counters =>
              { counters with requests := counters.requests + 1 } with cache }
          previewer rfl rfl used request.themeId
      rw [samePalette] at outcomeIs
      exact
        ⟨environment,
          Or.inr ⟨cache, looks, outcomeIs, palettes.trans samePalettes, kept⟩⟩

/-- An answer is a reply of the cache in the palette of the theme, which is asked for only if the
cache was looked through in vain. -/
theorem reply_of_answer
    (answers : previewer.answer tree request = (after, changed, outcome))
    {palette : Palette}
    (isPalette : ∀ cache,
      previewer.cache.lookup tree request.key = (cache, changed, none) →
        (previewer.palette changed request.themeId).2 = palette) :
    previewer.cache.reply tree request previewer.highlighter palette =
        (after.cache, changed, outcome) ∧
      after.environment = previewer.environment ∧
      (after.palettes = previewer.palettes ∨
        ∃ cache,
          previewer.cache.lookup tree request.key = (cache, changed, none) ∧
            after.palettes =
              (previewer.palette changed request.themeId).1.palettes) := by
  obtain ⟨environment, ⟨tier, hit, looks, palettes⟩ | ⟨cache, looks, made, palettes, kept⟩⟩ :=
    answer_spec answers
  · unfold Cache.reply
    rw [looks]
    exact ⟨congrArg (after.cache, changed, ·) (hit ▸ rfl), environment, Or.inl palettes⟩
  · rw [isPalette cache looks] at made
    unfold Cache.reply
    rw [looks, kept, made]
    exact ⟨rfl, environment, Or.inr ⟨cache, rfl, palettes⟩⟩

end Previewer

end SourcePreview
