import SourcePreview.Proofs.Highlight.Selection
import SourcePreview.Proofs.Pattern.Stretches

/-!
# Which stretches are kept

The stretches that are kept lie apart.  A rule finds its tokens one behind the other, so what it
asks for competes only with what the rules before it have kept: every stretch of the first rule
is kept, and one of a later rule is kept unless it meets a kept stretch of an earlier rule.
-/

namespace SourcePreview.Highlight

open Claim

variable {rules : List Rule} {text : List Char}

theorem mem_candidates_of_mem_keptOf
    {claim : Claim} (kept : claim ∈ keptOf rules text) :
    ∃ rule ∈ rules, claim ∈ rule.claims text :=
  List.mem_flatMap.mp (mem_of_mem_select kept)

/-- The kept stretches in order. -/
theorem ordered_keptOf (rules : List Rule) (text : List Char) :
    Ordered ((keptOf rules text).mergeSort startsBy) := by
  obtain ⟨ordered, sorted⟩ := candidates_foldl_add rules text
  rwa [sorted] at ordered

theorem nonempty_of_mem_keptOf
    {claim : Claim} (kept : claim ∈ keptOf rules text) :
    claim.start < claim.stop :=
  (ordered_keptOf rules text).nonempty claim (List.mem_mergeSort.mpr kept)

/-- Kept stretches that meet are the same. -/
theorem eq_of_meets
    {left right : Claim}
    (leftKept : left ∈ keptOf rules text) (rightKept : right ∈ keptOf rules text)
    (meets : left.Meets right) :
    left = right :=
  (ordered_keptOf rules text).eq_of_meets (List.mem_mergeSort.mpr leftKept)
    (List.mem_mergeSort.mpr rightKept) meets

/-- What a rule asks for is kept unless a kept stretch of an earlier rule meets it. -/
theorem mem_keptOf_of_mem_claims
    {before after : List Rule} {rule : Rule} {claim : Claim}
    (asked : claim ∈ rule.claims text) (nonempty : claim.start < claim.stop)
    (apart : ∀ earlier ∈ before, ∀ prior ∈ earlier.claims text,
      prior ∈ keptOf (before ++ rule :: after) text → ¬ prior.Meets claim) :
    claim ∈ keptOf (before ++ rule :: after) text := by
  obtain ⟨front, back, parts⟩ := List.append_of_mem asked
  have order :
      candidates (before ++ rule :: after) text =
        (candidates before text ++ front) ++ claim :: (back ++ candidates after text) := by
    simp [candidates, parts]
  rw [keptOf, order]
  refine (mem_select_or_exists_covers _ _ nonempty (marked_unmarked text)).resolve_right ?_
  rintro ⟨prior, priorKept, index, ⟨_, priorStarts, priorStops⟩, ⟨_, starts, stops⟩⟩
  rw [List.nil_append] at priorKept
  have meets : prior.Meets claim := ⟨by omega, by omega⟩
  rcases List.mem_append.mp (mem_of_mem_select priorKept) with earlier | sameRule
  · obtain ⟨other, otherMember, otherAsked⟩ := List.mem_flatMap.mp earlier
    refine apart other otherMember prior otherAsked ?_ meets
    rw [keptOf, order]
    exact mem_select_append priorKept
  · have inOrder := rule.pairwise_claims text
    rw [parts] at inOrder
    have gap : prior.stop ≤ claim.start :=
      (List.pairwise_append.mp inOrder).2.2 prior sameRule claim List.mem_cons_self
    have overlap := meets.2
    omega

/-- What a rule asks for is kept if nothing that an earlier rule asks for meets it. -/
theorem mem_keptOf_of_apart
    (before : List Rule) (rule : Rule) (after : List Rule) {claim : Claim}
    (asked : claim ∈ rule.claims text) (nonempty : claim.start < claim.stop)
    (apart : ∀ earlier ∈ before, ∀ prior ∈ earlier.claims text, ¬ prior.Meets claim) :
    claim ∈ keptOf (before ++ rule :: after) text :=
  mem_keptOf_of_mem_claims asked nonempty fun earlier member prior priorAsked _ =>
    apart earlier member prior priorAsked

/-- What the first rule asks for is kept. -/
theorem mem_keptOf_of_mem_claims_head
    {rule : Rule} {claim : Claim}
    (asked : claim ∈ rule.claims text) (nonempty : claim.start < claim.stop) :
    claim ∈ keptOf (rule :: rules) text :=
  mem_keptOf_of_apart [] rule rules asked nonempty (by simp)

/-- If ordered stretches are all kept, and whatever is kept lies inside one of them, then nothing
else is kept. -/
theorem mergeSort_keptOf_eq
    {stretches : List Claim} (ordered : Ordered stretches)
    (areKept : ∀ stretch ∈ stretches, stretch ∈ keptOf rules text)
    (inside : ∀ claim ∈ keptOf rules text,
      ∃ stretch ∈ stretches, stretch.start ≤ claim.start ∧ claim.stop ≤ stretch.stop) :
    (keptOf rules text).mergeSort startsBy = stretches := by
  have keptNodup : (keptOf rules text).Nodup :=
    (List.mergeSort_perm _ startsBy).nodup_iff.mp (ordered_keptOf rules text).nodup
  have same : stretches.Perm (keptOf rules text) := by
    refine (List.perm_ext_iff_of_nodup ordered.nodup keptNodup).mpr fun claim => ?_
    refine ⟨areKept claim, fun kept => ?_⟩
    obtain ⟨stretch, member, starts, stops⟩ := inside claim kept
    have nonempty := nonempty_of_mem_keptOf kept
    have meets : stretch.Meets claim := ⟨by omega, by omega⟩
    rwa [← eq_of_meets (areKept stretch member) kept meets]
  exact (ordered.eq_mergeSort same).symm

/-- The spans of a text are the kept stretches, counted in characters. -/
theorem exists_spans?_mem_iff
    {language : Language} {table : RuleTable}
    (tabled : language.ruleTable? = some table) (text : String) :
    ∃ spans,
      spans? language text (fun _ => false) = some spans ∧
        ∀ span, span ∈ spans ↔
          ∃ claim ∈ keptOf (activeRules language table) text.toList,
            claim.toSpan text.toList = span := by
  refine ⟨_, spans?_never tabled text, fun span => ?_⟩
  simp only [List.mem_map, List.mem_mergeSort]

end SourcePreview.Highlight
