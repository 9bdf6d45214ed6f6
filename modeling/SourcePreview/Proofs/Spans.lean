import SourcePreview.StyledText
import Mathlib.Data.List.Pairwise

/-!
# Well-formed spans

The check of spans compares each of them with the one before.  What it decides is a statement
about all pairs: every span is non-empty and inside the text, and an earlier one ends before a
later one starts.
-/

namespace SourcePreview

/-- Comparing neighbours decides the order of all pairs of spans. -/
theorem Span.wellFormedFrom_iff
    {length least : Nat} {spans : List Span} :
    Span.wellFormedFrom length least spans = true ↔
      (∀ span ∈ spans,
        least ≤ span.start ∧ span.start < span.stop ∧ span.stop ≤ length) ∧
      spans.Pairwise fun left right => left.stop ≤ right.start := by
  induction spans generalizing least with
  | nil => simp [Span.wellFormedFrom]
  | cons first rest ih =>
      rw [Span.wellFormedFrom, Bool.and_eq_true, ih]
      simp only [Bool.and_eq_true, decide_eq_true_eq, List.forall_mem_cons,
        List.pairwise_cons]
      constructor
      · rintro ⟨⟨⟨after, nonempty⟩, inside⟩, restInside, restApart⟩
        refine ⟨⟨⟨after, nonempty, inside⟩, ?_⟩, ?_, restApart⟩
        · intro span member
          have bounds := restInside span member
          exact ⟨by omega, bounds.2⟩
        · intro span member
          exact (restInside span member).1
      · rintro ⟨⟨⟨after, nonempty, inside⟩, restInside⟩, behind, restApart⟩
        refine ⟨⟨⟨after, nonempty⟩, inside⟩, ?_, restApart⟩
        intro span member
        exact ⟨behind span member, (restInside span member).2⟩

/-- Whether spans are non-empty, inside a text of so many characters, in order and apart. -/
structure Span.AreOrdered (length : Nat) (spans : List Span) : Prop where
  inside : ∀ span ∈ spans, span.start < span.stop ∧ span.stop ≤ length
  apart : spans.Pairwise fun left right => left.stop ≤ right.start

/-- The check of spans decides their order. -/
theorem StyledText.isWellFormed_iff {styled : StyledText} :
    styled.isWellFormed = true ↔ Span.AreOrdered styled.text.length styled.spans := by
  rw [isWellFormed, Span.wellFormed, Span.wellFormedFrom_iff, String.length_toList]
  constructor
  · rintro ⟨bounds, apart⟩
    exact ⟨fun span member => (bounds span member).2, apart⟩
  · rintro ⟨inside, apart⟩
    exact ⟨fun span member => ⟨Nat.zero_le _, inside span member⟩, apart⟩

/--
The check of spans accepts a styled text exactly if every span is non-empty and inside the text
and, of any two places of the list, the span at the first one stops before the span at the second
one starts.
-/
theorem StyledText.isWellFormed_iff_forall_places (styled : StyledText) :
    styled.isWellFormed = true ↔
      (∀ span ∈ styled.spans, span.start < span.stop ∧ span.stop ≤ styled.text.length) ∧
      ∀ (first second : Nat) (inside : second < styled.spans.length) (before : first < second),
        styled.spans[first].stop ≤ styled.spans[second].start := by
  rw [isWellFormed_iff]
  constructor
  · rintro ⟨each, apart⟩
    refine ⟨each, fun first second inside before => ?_⟩
    exact List.pairwise_iff_getElem.mp apart first second (by omega) inside before
  · rintro ⟨each, ordered⟩
    refine ⟨each, List.pairwise_iff_getElem.mpr fun first second _ inside before => ?_⟩
    exact ordered first second inside before

end SourcePreview
