import SourcePreview.Highlight.Run
import SourcePreview.Proofs.Highlight.Claims
import SourcePreview.Proofs.Pattern.Places
import SourcePreview.Proofs.Spans

/-!
# Highlighting selects stretches greedily

The plain way to decide between stretches that overlap keeps a mark for every character of the
text.  It goes through the stretches in the order in which the rules ask for them, keeps one that
is not empty if none of its characters is marked, and marks its characters.  Highlighting gives
the stretches kept in this way, ordered by their start and counted in characters.

Hence the spans of a highlighted text are non-empty, in order, apart from each other and inside
the text.
-/

namespace SourcePreview

namespace Claim

/-- One mark for each character of a text that starts at a byte offset: whether the stretch
covers the character. -/
def marksFrom (claim : Claim) : (offset : Nat) → List Char → List Bool
  | _, [] => []
  | offset, character :: rest =>
    (claim.start ≤ offset && offset < claim.stop) ::
      claim.marksFrom (offset + character.utf8Size) rest

/-- One mark for each character of a text: whether the stretch covers the character. -/
def marks (claim : Claim) (text : List Char) : List Bool :=
  claim.marksFrom 0 text

/-- Whether the stretch covers the character of a text at an index. -/
def Covers (text : List Char) (claim : Claim) (index : Nat) : Prop :=
  index < text.length ∧
    claim.start ≤ Text.offsetAt text index ∧
    Text.offsetAt text index < claim.stop

/-- The stretch counted in characters of a text. -/
def toSpan (text : List Char) (claim : Claim) : Span :=
  ⟨Text.charactersBefore text claim.start,
    Text.charactersBefore text claim.stop, claim.tokenClass⟩

@[simp]
theorem length_marksFrom (claim : Claim) (offset : Nat) (text : List Char) :
    (claim.marksFrom offset text).length = text.length := by
  induction text generalizing offset with
  | nil => rfl
  | cons character rest ih => simp [marksFrom, ih]

theorem getElem?_marksFrom
    (claim : Claim) (offset : Nat) (text : List Char) (index : Nat) :
    (claim.marksFrom offset text)[index]? = some true ↔
      index < text.length ∧
        claim.start ≤ offset + Text.offsetAt text index ∧
        offset + Text.offsetAt text index < claim.stop := by
  induction text generalizing offset index with
  | nil => simp [marksFrom]
  | cons character rest ih =>
      cases index with
      | zero => simp [marksFrom]
      | succ index =>
          simp [marksFrom, ih, Nat.add_assoc]

@[simp]
theorem length_marks (claim : Claim) (text : List Char) :
    (claim.marks text).length = text.length :=
  length_marksFrom claim 0 text

/-- The marks of a stretch are at the characters that it covers. -/
theorem getElem?_marks (claim : Claim) (text : List Char) (index : Nat) :
    (claim.marks text)[index]? = some true ↔ claim.Covers text index := by
  rw [marks, getElem?_marksFrom, Covers, Nat.zero_add]

/-- Two non-empty stretches between characters have a byte in common exactly if they have a
character in common. -/
theorem exists_covers_iff_meets
    {text : List Char} {left right : Claim}
    (leftOn : left.OnBoundaries text) (rightOn : right.OnBoundaries text)
    (leftNonempty : left.start < left.stop)
    (rightNonempty : right.start < right.stop) :
    (∃ index, left.Covers text index ∧ right.Covers text index) ↔
      left.Meets right := by
  constructor
  · rintro ⟨index, ⟨_, leftStarts, leftStops⟩, ⟨_, rightStarts, rightStops⟩⟩
    exact ⟨by omega, by omega⟩
  · rintro ⟨leftFirst, rightFirst⟩
    obtain ⟨leftIndex, leftInside, leftStart⟩ := leftOn.start
    obtain ⟨rightIndex, rightInside, rightStart⟩ := rightOn.start
    -- The character that the later one of the two starts with lies in both.
    have shared :
        ∃ index ≤ text.length,
          left.start ≤ Text.offsetAt text index ∧
          Text.offsetAt text index < left.stop ∧
          right.start ≤ Text.offsetAt text index ∧
          Text.offsetAt text index < right.stop := by
      rcases Nat.le_total left.start right.start with order | order
      · exact ⟨rightIndex, rightInside, by omega⟩
      · exact ⟨leftIndex, leftInside, by omega⟩
    obtain ⟨index, inside, leftStarts, leftStops, rightStarts, rightStops⟩ :=
      shared
    obtain ⟨stopIndex, stopInside, stop⟩ := leftOn.stop
    have beforeEnd : index < stopIndex :=
      (Text.offsetAt_lt_iff inside stopInside).mp (by omega)
    have within : index < text.length := by omega
    exact
      ⟨index, ⟨within, leftStarts, leftStops⟩,
        ⟨within, rightStarts, rightStops⟩⟩

end Claim

namespace Highlight

open Claim

/-- No mark on any character of a text. -/
def unmarked (text : List Char) : List Bool :=
  text.map fun _ => false

/-- Whether some character has both marks. -/
def overlap (left right : List Bool) : Bool :=
  (List.zipWith (· && ·) left right).any id

/-- The marks of both. -/
def union (left right : List Bool) : List Bool :=
  List.zipWith (· || ·) left right

/-- The stretches that are kept, where each that is kept marks its characters: those that are not
empty and cover no character which is marked by then. -/
def select (text : List Char) : (marked : List Bool) → List Claim → List Claim
  | _, [] => []
  | marked, claim :: claims =>
    if claim.start < claim.stop ∧ !overlap marked (claim.marks text) then
      claim :: select text (union marked (claim.marks text)) claims
    else select text marked claims

theorem overlap_iff (left right : List Bool) :
    overlap left right = true ↔
      ∃ index : Nat, left[index]? = some true ∧ right[index]? = some true := by
  simp only [overlap, List.any_eq_true, id, List.mem_iff_getElem?,
    List.getElem?_zipWith_eq_some]
  constructor
  · rintro ⟨mark, ⟨index, first, second, leftMark, rightMark, both⟩, isTrue⟩
    subst isTrue
    simp only [Bool.and_eq_true] at both
    exact ⟨index, both.1 ▸ leftMark, both.2 ▸ rightMark⟩
  · rintro ⟨index, leftMark, rightMark⟩
    exact ⟨true, ⟨index, true, true, leftMark, rightMark, rfl⟩, rfl⟩

theorem getElem?_union
    {left right : List Bool} (sameLength : left.length = right.length)
    (index : Nat) :
    (union left right)[index]? = some true ↔
      left[index]? = some true ∨ right[index]? = some true := by
  rw [union, List.getElem?_zipWith_eq_some]
  constructor
  · rintro ⟨first, second, leftMark, rightMark, either⟩
    rcases Bool.or_eq_true_iff.mp either with isTrue | isTrue
    · exact Or.inl (isTrue ▸ leftMark)
    · exact Or.inr (isTrue ▸ rightMark)
  · rintro (mark | mark)
    · obtain ⟨inside, _⟩ := List.getElem?_eq_some_iff.mp mark
      exact
        ⟨true, right.get ⟨index, sameLength ▸ inside⟩, mark,
          List.getElem?_eq_getElem _, rfl⟩
    · obtain ⟨inside, _⟩ := List.getElem?_eq_some_iff.mp mark
      exact
        ⟨left.get ⟨index, sameLength ▸ inside⟩, true,
          List.getElem?_eq_getElem _, mark, Bool.or_true _⟩

@[simp]
theorem getElem?_unmarked (text : List Char) (index : Nat) :
    (unmarked text)[index]? ≠ some true := by
  simp [unmarked, List.getElem?_replicate]

/-- Whether exactly the characters of some stretches are marked. -/
structure Marked
    (text : List Char) (marked : List Bool) (kept : List Claim) : Prop where
  length_eq : marked.length = text.length
  mark_iff : ∀ index : Nat,
    marked[index]? = some true ↔ ∃ claim ∈ kept, claim.Covers text index

theorem marked_unmarked (text : List Char) :
    Marked text (unmarked text) [] :=
  ⟨by simp [unmarked], fun index => by simp⟩

/-- Keeping one more stretch marks its characters. -/
theorem Marked.union
    {text : List Char} {marked : List Bool} {kept : List Claim}
    (represents : Marked text marked kept) (claim : Claim) :
    Marked text (union marked (claim.marks text)) (kept ++ [claim]) := by
  have sameLength : marked.length = (claim.marks text).length := by
    rw [represents.length_eq, length_marks]
  constructor
  · simp [Highlight.union, represents.length_eq]
  · intro index
    rw [getElem?_union sameLength, represents.mark_iff, getElem?_marks]
    constructor
    · rintro (⟨other, member, covers⟩ | covers)
      · exact ⟨other, List.mem_append_left _ member, covers⟩
      · exact ⟨claim, by simp, covers⟩
    · rintro ⟨other, member, covers⟩
      rcases List.mem_append.mp member with earlier | last
      · exact Or.inl ⟨other, earlier, covers⟩
      · exact Or.inr (List.mem_singleton.mp last ▸ covers)

/-- A stretch overlaps the marks exactly if it shares a character with a kept stretch. -/
theorem Marked.overlap_iff_exists
    {text : List Char} {marked : List Bool} {kept : List Claim}
    (represents : Marked text marked kept) (claim : Claim) :
    overlap marked (claim.marks text) = true ↔
      ∃ other ∈ kept, ∃ index,
        other.Covers text index ∧ claim.Covers text index := by
  simp only [overlap_iff, represents.mark_iff, getElem?_marks]
  constructor
  · rintro ⟨index, ⟨other, member, otherCovers⟩, covers⟩
    exact ⟨other, member, index, otherCovers, covers⟩
  · rintro ⟨other, member, index, otherCovers, covers⟩
    exact ⟨index, ⟨other, member, otherCovers⟩, covers⟩

/-- The marks let a stretch pass exactly if it fits besides the kept stretches. -/
theorem Marked.fits_iff
    {text : List Char} {marked : List Bool} {kept : List Claim}
    (represents : Marked text marked kept)
    (keptOn : ∀ other ∈ kept, other.OnBoundaries text)
    (keptNonempty : ∀ other ∈ kept, other.start < other.stop)
    {claim : Claim} (claimOn : claim.OnBoundaries text) :
    claim.Fits kept ↔
      claim.start < claim.stop ∧ !overlap marked (claim.marks text) := by
  refine and_congr_right fun nonempty => ?_
  rw [Bool.not_eq_true', ← Bool.not_eq_true, represents.overlap_iff_exists]
  constructor
  · rintro apart ⟨other, member, index, otherCovers, covers⟩
    exact
      apart other member
        ((exists_covers_iff_meets claimOn (keptOn other member) nonempty
          (keptNonempty other member)).mp ⟨index, covers, otherCovers⟩)
  · rintro none other member meets
    obtain ⟨index, covers, otherCovers⟩ :=
      (exists_covers_iff_meets claimOn (keptOn other member) nonempty
        (keptNonempty other member)).mpr meets
    exact none ⟨other, member, index, otherCovers, covers⟩

/-- Claiming stretch after stretch keeps what the marks let pass. -/
theorem foldl_add_perm_select
    {text : List Char} {asked : List Claim}
    (askedOn : ∀ claim ∈ asked, claim.OnBoundaries text)
    {claims : Claims} {marked : List Bool} {kept : List Claim}
    (ordered : Ordered claims.toList) (same : claims.toList.Perm kept)
    (keptOn : ∀ claim ∈ kept, claim.OnBoundaries text)
    (represents : Marked text marked kept) :
    Ordered (asked.foldl Claims.add claims).toList ∧
      (asked.foldl Claims.add claims).toList.Perm
        (kept ++ select text marked asked) := by
  induction asked generalizing claims marked kept with
  | nil => simpa [select] using ⟨ordered, same⟩
  | cons claim asked ih =>
      have claimOn : claim.OnBoundaries text := askedOn claim (by simp)
      have othersOn : ∀ other ∈ asked, other.OnBoundaries text :=
        fun other member => askedOn other (by simp [member])
      have keptNonempty : ∀ other ∈ kept, other.start < other.stop :=
        fun other member => ordered.nonempty other (same.mem_iff.mpr member)
      have fitsIff : claim.Fits claims.toList ↔ claim.Fits kept :=
        and_congr_right fun _ =>
          forall_congr' fun other => imp_congr_left same.mem_iff
      rw [List.foldl_cons, select]
      split
      · next passes =>
          have fits : claim.Fits claims.toList :=
            fitsIff.mpr
              ((represents.fits_iff keptOn keptNonempty claimOn).mpr passes)
          obtain ⟨addedOrdered, added⟩ := Claims.add_of_fits ordered fits
          have addedSame :
              (claims.add claim).toList.Perm (kept ++ [claim]) :=
            added.trans
              ((same.cons claim).trans (List.perm_append_singleton _ _).symm)
          have addedOn :
              ∀ other ∈ kept ++ [claim], other.OnBoundaries text := by
            intro other member
            rcases List.mem_append.mp member with earlier | last
            · exact keptOn other earlier
            · exact List.mem_singleton.mp last ▸ claimOn
          simpa using
            ih othersOn addedOrdered addedSame addedOn (represents.union claim)
      · next refused =>
          have unchanged :=
            Claims.toList_add_of_not_fits ordered fun fits =>
              refused
                ((represents.fits_iff keptOn keptNonempty claimOn).mp
                  (fitsIff.mp fits))
          exact
            ih othersOn (by rwa [unchanged]) (by rwa [unchanged])
              keptOn represents

/-- Running the rules without being called off claims what they ask for, in order. -/
theorem runRules_never
    (text : List Char) (poll : Nat) (rules : List Rule) (claims : Claims) :
    runRules (fun _ => false) text poll rules claims =
      some ((candidates rules text).foldl Claims.add claims) := by
  induction rules generalizing poll claims with
  | nil => rfl
  | cons rule rules ih =>
      simp [runRules, ih, applyRule, candidates, List.foldl_append]

/-- What the rules ask for lies between characters. -/
theorem onBoundaries_of_mem_candidates
    {rules : List Rule} {text : List Char} {claim : Claim}
    (member : claim ∈ candidates rules text) :
    claim.OnBoundaries text := by
  obtain ⟨rule, _, asked⟩ := List.mem_flatMap.mp member
  exact Rule.onBoundaries_of_mem_claims asked

/-- Between characters, the table of offsets counts the characters before. -/
theorem spansOf_eq_map_toSpan
    {text : List Char} {claims : List Claim}
    (between : ∀ claim ∈ claims, claim.OnBoundaries text) :
    spansOf text claims = claims.map (Claim.toSpan text) := by
  refine List.map_congr_left fun claim member => ?_
  have boundaries := between claim member
  simp only [toSpan,
    ByteOffsets.charIndex_eq_charactersBefore boundaries.start,
    ByteOffsets.charIndex_eq_charactersBefore boundaries.stop]

/-- The stretches that are kept of what the rules ask for. -/
def keptOf (rules : List Rule) (text : List Char) : List Claim :=
  select text (unmarked text) (candidates rules text)

/-- All rules together claim the stretches that are kept, in order. -/
theorem candidates_foldl_add
    (rules : List Rule) (text : List Char) :
    Ordered ((candidates rules text).foldl Claims.add Claims.none).toList ∧
      ((candidates rules text).foldl Claims.add Claims.none).toList =
        (keptOf rules text).mergeSort startsBy := by
  have empty : Ordered Claims.none.toList := ⟨by simp, by simp⟩
  have between :
      ∀ claim ∈ candidates rules text, claim.OnBoundaries text :=
    fun _ => onBoundaries_of_mem_candidates
  obtain ⟨ordered, same⟩ :=
    foldl_add_perm_select between empty (List.Perm.refl _) (by simp) (marked_unmarked text)
  exact ⟨ordered, ordered.eq_mergeSort same⟩

theorem mem_of_mem_select
    {text : List Char} {marked : List Bool} {asked : List Claim} {claim : Claim}
    (member : claim ∈ select text marked asked) :
    claim ∈ asked := by
  induction asked generalizing marked with
  | nil => simp [select] at member
  | cons first asked ih =>
      rw [select] at member
      split at member
      · rcases List.mem_cons.mp member with rfl | later
        · exact List.mem_cons_self
        · exact List.mem_cons_of_mem _ (ih later)
      · exact List.mem_cons_of_mem _ (ih member)

/-- The spans of a text are the kept stretches by their start, counted in characters. -/
theorem spans?_never
    {language : Language} {table : RuleTable}
    (tabled : language.ruleTable? = some table) (text : String) :
    spans? language text (fun _ => false) =
      some
        (((keptOf (activeRules language table) text.toList).mergeSort
          startsBy).map (Claim.toSpan text.toList)) := by
  obtain ⟨_, sorted⟩ :=
    candidates_foldl_add (activeRules language table) text.toList
  have between :
      ∀ claim ∈
          (keptOf (activeRules language table) text.toList).mergeSort startsBy,
        claim.OnBoundaries text.toList := by
    intro claim member
    exact
      onBoundaries_of_mem_candidates
        (mem_of_mem_select (List.mem_mergeSort.mp member))
  simp only [spans?, tabled, runRules_never, Option.map_some, sorted,
    spansOf_eq_map_toSpan between]

/-- Ordered stretches between characters are well-formed spans. -/
theorem wellFormed_map_toSpan
    {text : List Char} {claims : List Claim}
    (ordered : Ordered claims)
    (between : ∀ claim ∈ claims, claim.OnBoundaries text) :
    Span.wellFormed text.length (claims.map (Claim.toSpan text)) = true := by
  rw [Span.wellFormed, Span.wellFormedFrom_iff]
  constructor
  · intro span member
    obtain ⟨claim, claimMember, rfl⟩ := List.mem_map.mp member
    obtain ⟨⟨start, startInside, startAt⟩, ⟨stop, stopInside, stopAt⟩⟩ :=
      between claim claimMember
    have nonempty := ordered.nonempty claim claimMember
    rw [startAt, stopAt, Text.offsetAt_lt_iff startInside stopInside] at nonempty
    simpa [toSpan, startAt, stopAt, startInside, stopInside] using nonempty
  · rw [List.pairwise_map]
    refine ordered.apart.imp_of_mem ?_
    intro left right leftMember rightMember apart
    obtain ⟨stop, stopInside, stopAt⟩ := (between left leftMember).stop
    obtain ⟨start, startInside, startAt⟩ := (between right rightMember).start
    rw [startAt, stopAt, Text.offsetAt_le_iff stopInside startInside] at apart
    simpa [toSpan, startAt, stopAt, startInside, stopInside] using apart

/-- Highlighting that nobody calls off gives well-formed spans, in every language. -/
theorem exists_spans?_never (language : Language) (text : String) :
    ∃ spans,
      spans? language text (fun _ => false) = some spans ∧
        Span.wellFormed text.toList.length spans = true := by
  cases tabled : language.ruleTable? with
  | none => exact ⟨[], by simp [spans?, tabled], rfl⟩
  | some table =>
      refine ⟨_, spans?_never tabled text, ?_⟩
      obtain ⟨ordered, sorted⟩ :=
        candidates_foldl_add (activeRules language table) text.toList
      rw [sorted] at ordered
      refine wellFormed_map_toSpan ordered fun claim member => ?_
      exact
        onBoundaries_of_mem_candidates
          (mem_of_mem_select (List.mem_mergeSort.mp member))

/--
The spans of a text are non-empty and inside the text, each starts after the one before and shares
no character with it, and the styled text that carries them passes the check of its spans.
-/
theorem spans?_inOrder
    (language : Language) (text : String) (palette : Palette) :
    ∃ spans,
      spans? language text (fun _ => false) = some spans ∧
        (∀ span ∈ spans, span.start < span.stop ∧ span.stop ≤ text.length) ∧
        (spans.Pairwise fun left right =>
          left.start < right.start ∧ left.stop ≤ right.start) ∧
        (StyledText.highlighted language text spans palette).isWellFormed =
          true := by
  obtain ⟨spans, given, wellFormed⟩ := exists_spans?_never language text
  obtain ⟨inside, apart⟩ := Span.wellFormedFrom_iff.mp wellFormed
  refine ⟨spans, given, ?_, ?_, wellFormed⟩
  · intro span member
    rw [← String.length_toList]
    exact (inside span member).2
  · refine apart.imp_of_mem ?_
    intro left right leftMember _ leftFirst
    have leftNonempty := (inside left leftMember).2.1
    exact ⟨by omega, leftFirst⟩

/-- What is kept of the first stretches does not depend on those that follow. -/
theorem mem_select_append
    {text : List Char} {marked : List Bool} {earlier later : List Claim}
    {claim : Claim} (member : claim ∈ select text marked earlier) :
    claim ∈ select text marked (earlier ++ later) := by
  induction earlier generalizing marked with
  | nil => simp [select] at member
  | cons first earlier ih =>
      rw [List.cons_append, select]
      rw [select] at member
      split at member
      · next passes =>
          rw [if_pos passes]
          rcases List.mem_cons.mp member with rfl | further
          · exact List.mem_cons_self
          · exact List.mem_cons_of_mem _ (ih further)
      · next refused =>
          rw [if_neg refused]
          exact ih member

/-- A stretch that is asked for is kept unless it shares a character with one kept before it. -/
theorem mem_select_or_exists_covers
    (earlier later : List Claim) {text : List Char} {claim : Claim}
    {marked : List Bool} {kept : List Claim}
    (nonempty : claim.start < claim.stop)
    (represents : Marked text marked kept) :
    claim ∈ select text marked (earlier ++ claim :: later) ∨
      ∃ prior ∈ kept ++ select text marked earlier, ∃ index,
        prior.Covers text index ∧ claim.Covers text index := by
  induction earlier generalizing marked kept with
  | nil =>
      by_cases overlaps : overlap marked (claim.marks text) = true
      · have shared := (represents.overlap_iff_exists claim).mp overlaps
        exact Or.inr (by simpa [select] using shared)
      · exact Or.inl (by simp [select, nonempty, overlaps])
  | cons first earlier ih =>
      rw [List.cons_append, select, select]
      split
      · rcases ih (represents.union first) with present | shared
        · exact Or.inl (List.mem_cons_of_mem _ present)
        · exact Or.inr (by simpa using shared)
      · exact ih represents

/--
The spans of a text are those of a greedy selection with a mark for every character.  What is kept
of the first stretches appears whatever is asked for later, and a non-empty stretch that does not
appear shares a character with one that was kept before it.
-/
theorem spans?_eq_select
    {language : Language} {table : RuleTable}
    (tabled : language.ruleTable? = some table) (text : String) :
    let characters := text.toList
    let asked := candidates (activeRules language table) characters
    let kept := select characters (unmarked characters)
    let spans :=
      ((kept asked).mergeSort startsBy).map (Claim.toSpan characters)
    spans? language text (fun _ => false) = some spans ∧
      (∀ earlier later, asked = earlier ++ later →
        ∀ claim ∈ kept earlier, claim.toSpan characters ∈ spans) ∧
      (∀ earlier claim later, asked = earlier ++ claim :: later →
        claim.start < claim.stop → claim.toSpan characters ∉ spans →
          ∃ prior ∈ kept earlier, ∃ index,
            prior.Covers characters index ∧
              claim.Covers characters index) := by
  intro characters asked kept spans
  have spanOfKept :
      ∀ claim ∈ kept asked, claim.toSpan characters ∈ spans :=
    fun claim member =>
      List.mem_map_of_mem (List.mem_mergeSort.mpr member)
  refine ⟨spans?_never tabled text, ?_, ?_⟩
  · intro earlier later whole claim member
    apply spanOfKept
    rw [whole]
    exact mem_select_append member
  · intro earlier claim later whole nonempty absent
    rcases mem_select_or_exists_covers earlier later nonempty
      (marked_unmarked characters) with present | shared
    · rw [← whole] at present
      exact absurd (spanOfKept claim present) absent
    · simpa using shared

/-- A key of a JSON object is asked for as a tag and then as a string, and stays a tag. -/
theorem spans?_eq_select_json :
    let text := "\x7b\"é\":1\x7d"
    Language.json.ruleTable? = some RuleTable.json ∧
      candidates (activeRules .json RuleTable.json) text.toList =
        [⟨1, 5, .tag⟩, ⟨1, 5, .string⟩, ⟨6, 7, .number⟩] ∧
      ∃ prior ∈ select text.toList (unmarked text.toList) [⟨1, 5, .tag⟩],
        ∃ index, prior.Covers text.toList index ∧
          Claim.Covers text.toList ⟨1, 5, .string⟩ index := by
  intro text
  obtain ⟨given, _, shared⟩ :=
    spans?_eq_select
      (show Language.json.ruleTable? = some RuleTable.json from rfl) text
  have asked :
      candidates (activeRules .json RuleTable.json) text.toList =
        [⟨1, 5, .tag⟩, ⟨1, 5, .string⟩, ⟨6, 7, .number⟩] := by
    decide +kernel
  have evaluated :
      spans? .json text (fun _ => false) =
        some [⟨1, 4, .tag⟩, ⟨5, 6, .number⟩] := by
    decide +kernel
  rw [evaluated] at given
  refine
    ⟨rfl, asked,
      shared [⟨1, 5, .tag⟩] ⟨1, 5, .string⟩ [⟨6, 7, .number⟩]
        asked (by decide) ?_⟩
  rw [← Option.some.inj given]
  decide +kernel

end Highlight

end SourcePreview
