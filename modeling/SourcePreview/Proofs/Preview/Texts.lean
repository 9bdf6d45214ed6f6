import SourcePreview.Proofs.Cache.Confinement
import SourcePreview.Proofs.Preview.Replies

/-!
# Previews have the texts of their requests

Whatever a highlighter does with a text, the preview has that text.  So a cache that is filled by
requests of which those with the same key have the same text gives every one of them its own text,
and the files that can be shown are left as they are.
-/

namespace SourcePreview

open FileTree

namespace Request

/-- Whether the key of a request tells its text, as far as some requests go. -/
def KeysTell (asked : List Request) : Prop :=
  ∀ first ∈ asked, ∀ second ∈ asked, first.key = second.key → first.text = second.text

/-- The claim about the preview of a key that it has the texts of all requests with the key among
some. -/
def HasTexts (asked : List Request) : PreviewClaim :=
  fun key styled => ∀ request ∈ asked, request.key = key → styled.text = request.text

/-- A preview with the text of a request has the texts of all requests with the same key. -/
theorem KeysTell.hasTexts
    {asked : List Request} (tell : KeysTell asked)
    {request : Request} (isAsked : request ∈ asked)
    {styled : StyledText} (same : styled.text = request.text) :
    HasTexts asked request.key styled := by
  intro other isOther sameKey
  rw [same]
  exact tell request isAsked other isOther sameKey.symm

end Request

/-- Whether the entries in a directory have nothing but the texts of some requests, and the
directory is reserved for them. -/
structure FileTree.IsFaithful
    (tree : FileTree) (directory : Location) (asked : List Request) : Prop where
  entries : tree.EntriesHold directory (Request.HasTexts asked)
  reserved : tree.IsReserved directory

/-- Whether a cache, in memory as on disk, has nothing but the texts of some requests. -/
structure Cache.IsFaithful
    (cache : Cache) (tree : FileTree) (directory : Location) (asked : List Request) : Prop extends
    tree.IsFaithful directory asked where
  isIn : cache.IsIn tree.working directory
  memory : cache.memory.Holds (Request.HasTexts asked)

section

variable {tree : FileTree} {directory : Location} {asked : List Request}

/-- Making directories changes nothing about the entries. -/
theorem FileTree.IsFaithful.of_adds
    {changed : FileTree} (faithful : tree.IsFaithful directory asked)
    (adds : AddsDirectories tree changed) :
    changed.IsFaithful directory asked :=
  ⟨faithful.entries.of_loses (adds.keepsEntries directory).loses, faithful.reserved.of_adds adds⟩

namespace Cache.IsFaithful

variable
    {cache : Cache} (faithful : cache.IsFaithful tree directory asked)

include faithful

/-- Writing a preview of which the claim holds changes nothing but entries. -/
theorem write
    {key : Key} {styled : StyledText} (hasTexts : Request.HasTexts asked key styled) :
    (cache.write tree key styled).1.IsFaithful (cache.write tree key styled).2 directory asked ∧
      ChangesEntries directory tree (cache.write tree key styled).2 := by
  have changes := changesEntries_write faithful.isIn faithful.reserved key styled
  refine ⟨?_, changes⟩
  have reserved := faithful.reserved.of_changes changes
  cases present : cache.disk with
  | none =>
      rw [Cache.write, present]
      exact faithful
  | some disk =>
      have located := faithful.isIn disk present
      rw [write_of_disk present] at changes reserved ⊢
      dsimp only at changes reserved ⊢
      constructor
      case toIsFaithful => exact ⟨faithful.entries.set located hasTexts, reserved⟩
      case isIn =>
        intro other isOther
        rw [← Option.some.inj isOther, DiskTier.config_set, changes.working]
        exact located
      case memory => exact faithful.memory

/-- Clearing leaves nothing but texts that were asked for, as far as it leaves entries at all. -/
theorem clear : (cache.clear tree).2.1.IsFaithful directory asked := by
  constructor
  · exact faithful.entries.of_loses (clear_spec cache tree directory).2
  · exact faithful.reserved.of_changes (changesEntries_clear faithful.isIn faithful.reserved)

/-- A request that was not in the cache may be kept. -/
theorem keep
    {request : Request} {outcome : Outcome}
    (hasTexts : Request.HasTexts asked request.key outcome.styled) :
    (cache.keep request outcome).IsFaithful tree directory asked := by
  constructor
  case toIsFaithful => exact faithful.toIsFaithful
  case isIn =>
    rw [IsIn, disk_keep]
    exact faithful.isIn
  case memory =>
    unfold Cache.keep
    split
    · exact faithful.memory.set hasTexts
    · exact faithful.memory

end Cache.IsFaithful

namespace Previewer

variable
    {previewer after : Previewer} {changed : FileTree} {request : Request} {outcome : Outcome}
    (faithful : previewer.cache.IsFaithful tree directory asked)
    (tell : Request.KeysTell asked) (isAsked : request ∈ asked)

include faithful tell isAsked

/-- A request is answered with its text, whether or not it is in the cache and whatever the
highlighter does. -/
theorem answer_of_isFaithful
    (answers : previewer.answer tree request = (after, changed, outcome)) :
    outcome.styled.text = request.text ∧
      after.cache.IsFaithful changed directory asked ∧
      ChangesEntries directory tree changed := by
  have loses := Cache.losesEntries_lookup faithful.isIn request.key
  have changes := Cache.changesEntries_lookup faithful.isIn faithful.reserved request.key
  obtain ⟨_, ⟨tier, _, looks, _⟩ | ⟨used, looks, made, _, kept⟩⟩ := answer_spec answers
  all_goals
    rw [looks] at loses changes
    have entries := faithful.entries.of_loses loses
    have reserved := faithful.reserved.of_changes changes
  case inl =>
    have onDisk : ∀ disk, previewer.cache.disk = some disk →
        tree.EntriesHold (disk.config.directory.locationFrom tree.working)
          (Request.HasTexts asked) := by
      intro disk present
      rw [faithful.isIn disk present]
      exact faithful.entries
    obtain ⟨sameDisk, memory, _, hasTexts⟩ := Cache.lookup_eq_some faithful.memory onDisk looks
    refine ⟨hasTexts request isAsked rfl, ⟨⟨entries, reserved⟩, ?_, memory⟩, changes⟩
    rw [Cache.IsIn, sameDisk, changes.working]
    exact faithful.isIn
  case inr =>
    obtain ⟨rfl, _⟩ := Cache.lookup_eq_none faithful.isIn looks
    have same : outcome.styled.text = request.text := by
      rw [made, Request.text_uncached]
    have unlooked : previewer.cache.IsFaithful changed directory asked := by
      refine ⟨⟨entries, reserved⟩, ?_, faithful.memory⟩
      rw [changes.working]
      exact faithful.isIn
    refine ⟨same, ?_, changes⟩
    rw [kept]
    exact unlooked.keep (tell.hasTexts isAsked same)

/-- A request is answered with its text, and nothing but entries is changed when the preview is
written to disk. -/
theorem preview_of_isFaithful
    (previews : previewer.preview tree request = (after, changed, outcome)) :
    outcome.styled.text = request.text ∧
      after.cache.IsFaithful changed directory asked ∧
      ChangesEntries directory tree changed := by
  unfold preview at previews
  cases answers : previewer.answer tree request with
  | mk answerer rest =>
      obtain ⟨read, found⟩ := rest
      obtain ⟨same, faithful, changes⟩ := answer_of_isFaithful faithful tell isAsked answers
      rw [answers] at previews
      dsimp only at previews
      unfold persist at previews
      split at previews
      · obtain ⟨written, changesAgain⟩ := faithful.write (tell.hasTexts isAsked same)
        cases previews
        exact ⟨same, written, changes.trans changesAgain⟩
      · cases previews
        exact ⟨same, faithful, changes⟩

end Previewer

end

end SourcePreview
