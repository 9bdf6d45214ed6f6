import SourcePreview.Proofs.Spans
import SourcePreview.Proofs.StyledText.Segments

/-!
# The token class of a character

Well-formed spans say of every character which class it has: that of the only span that covers it,
or plain where no span does.  The class is looked up by halving the spans, and it can be read off
the segments; both agree with what the spans say.  Main statement: `classAt_agrees`.
-/

namespace SourcePreview

/-- Whether a span covers the character at an index. -/
def Span.covers (span : Span) (index : Nat) : Bool :=
  span.start ≤ index && index < span.stop

theorem Span.covers_iff {span : Span} {index : Nat} :
    span.covers index = true ↔ span.start ≤ index ∧ index < span.stop := by
  rw [covers, Bool.and_eq_true, decide_eq_true_eq, decide_eq_true_eq]

namespace StyledText

section Halving

/-- The spans in front of a place end at or before an index, and the others do not. -/
structure EndsAt (spans : Array Span) (index place : Nat) : Prop where
  le_size : place ≤ spans.size
  any_iff : ∀ other, (spans[other]?.any fun span => span.stop ≤ index) = true ↔ other < place

variable {spans : Array Span} {index place : Nat}

/-- Halving keeps the place where the spans stop ending within the stretch that is left. -/
theorem EndsAt.narrow
    (ends : EndsAt spans index place) {rounds base size : Nat}
    (enough : size ≤ rounds + 1) (positive : 0 < size)
    (low : base ≤ place) (high : place ≤ base + size) :
    StyledText.narrow spans index rounds base size ≤ place ∧
      place ≤ StyledText.narrow spans index rounds base size + 1 := by
  induction rounds generalizing base size with
  | zero =>
      rw [StyledText.narrow]
      omega
  | succ rounds ih =>
      rw [StyledText.narrow]
      dsimp only
      split
      · next several =>
          have ended := ends.any_iff (base + size / 2)
          split
          · next before =>
              have := ended.mp before
              exact ih (by omega) (by omega) (by omega) (by omega)
          · next behind =>
              have := mt ended.mpr behind
              exact ih (by omega) (by omega) low (by omega)
      · omega

/-- The number of spans that end at or before an index is found by halving. -/
theorem EndsAt.endedBy (ends : EndsAt spans index place) :
    StyledText.endedBy spans index = place := by
  rw [StyledText.endedBy]
  split
  · next empty =>
      have := ends.le_size
      rw [Array.isEmpty_iff_size_eq_zero] at empty
      omega
  · next nonempty =>
      rw [Array.isEmpty_iff_size_eq_zero] at nonempty
      have size := ends.le_size
      obtain ⟨low, high⟩ :
          StyledText.narrow spans index spans.size 0 spans.size ≤ place ∧
            place ≤ StyledText.narrow spans index spans.size 0 spans.size + 1 :=
        ends.narrow (by omega) (by omega) (Nat.zero_le _) (by omega)
      have ended := ends.any_iff (StyledText.narrow spans index spans.size 0 spans.size)
      dsimp only
      split
      · next before =>
          have := ended.mp before
          omega
      · next behind =>
          have := mt ended.mpr behind
          omega

end Halving

/-- The class that spans say the character at an index has. -/
def declaredClass (spans : List Span) (index : Nat) : TokenClass :=
  ((spans.find? (·.covers index)).map Span.tokenClass).getD .plain

theorem declaredClass_cons (span : Span) (spans : List Span) (index : Nat) :
    declaredClass (span :: spans) index =
      if span.covers index then span.tokenClass else declaredClass spans index := by
  rw [declaredClass, declaredClass, List.find?_cons]
  cases span.covers index <;> rfl

theorem declaredClass_append
    {ended : List Span} {index : Nat} (endedBefore : ∀ span ∈ ended, span.stop ≤ index)
    (ahead : List Span) :
    declaredClass (ended ++ ahead) index = declaredClass ahead index := by
  have none : ended.find? (·.covers index) = none := by
    rw [List.find?_eq_none]
    intro span member covers
    have := Span.covers_iff.mp covers
    have := endedBefore span member
    omega
  rw [declaredClass, List.find?_append, none, Option.none_or, declaredClass]

theorem declaredClass_eq_plain
    {spans : List Span} {index : Nat} (later : ∀ span ∈ spans, index < span.start) :
    declaredClass spans index = .plain := by
  have none : spans.find? (·.covers index) = none := by
    rw [List.find?_eq_none]
    intro span member covers
    have := Span.covers_iff.mp covers
    have := later span member
    omega
  rw [declaredClass, none]
  rfl

/-- At most one of several spans that are apart covers a character. -/
theorem filter_covers_cases
    {spans : List Span} (apart : spans.Pairwise fun left right => left.stop ≤ right.start)
    (index : Nat) :
    spans.filter (·.covers index) = [] ∧ declaredClass spans index = .plain ∨
      ∃ span, spans.filter (·.covers index) = [span] ∧
        declaredClass spans index = span.tokenClass := by
  have found : (spans.filter (·.covers index)).head? = spans.find? (·.covers index) :=
    List.head?_filter
  rw [declaredClass, ← found]
  generalize covering : spans.filter (·.covers index) = covered
  match covered with
  | [] => exact Or.inl ⟨rfl, rfl⟩
  | [span] => exact Or.inr ⟨span, rfl, rfl⟩
  | first :: second :: others =>
      have firstCovers : first ∈ spans.filter (·.covers index) := by simp [covering]
      have secondCovers : second ∈ spans.filter (·.covers index) := by simp [covering]
      have ordered := apart.filter (·.covers index)
      rw [covering] at ordered
      have before := (List.pairwise_cons.mp ordered).1 second List.mem_cons_self
      have := Span.covers_iff.mp (List.mem_filter.mp firstCovers).2
      have := Span.covers_iff.mp (List.mem_filter.mp secondCovers).2
      omega

/-- Spans in order are those that end at or before an index and, behind them, the others. -/
theorem exists_ended_ahead
    {length : Nat} {spans : List Span} (ordered : Span.AreOrdered length spans) (index : Nat) :
    ∃ ended ahead, spans = ended ++ ahead ∧ (∀ span ∈ ended, span.stop ≤ index) ∧
      ∀ span ∈ ahead, index < span.stop := by
  obtain ⟨inside, apart⟩ := ordered
  induction spans with
  | nil => exact ⟨[], [], rfl, by simp, by simp⟩
  | cons first rest ih =>
      rw [List.forall_mem_cons] at inside
      rw [List.pairwise_cons] at apart
      by_cases before : first.stop ≤ index
      · obtain ⟨ended, ahead, parts, endedBefore, aheadAfter⟩ := ih inside.2 apart.2
        refine ⟨first :: ended, ahead, by rw [parts, List.cons_append], ?_, aheadAfter⟩
        rw [List.forall_mem_cons]
        exact ⟨before, endedBefore⟩
      · refine ⟨[], first :: rest, rfl, by simp, ?_⟩
        rw [List.forall_mem_cons]
        refine ⟨by omega, fun span member => ?_⟩
        have := apart.1 span member
        have := inside.2 span member
        omega

theorem endsAt_length
    {ended ahead : List Span} {index : Nat}
    (endedBefore : ∀ span ∈ ended, span.stop ≤ index)
    (aheadAfter : ∀ span ∈ ahead, index < span.stop) :
    EndsAt (ended ++ ahead).toArray index ended.length where
  le_size := by
    rw [List.size_toArray, List.length_append]
    omega
  any_iff other := by
    rw [List.getElem?_toArray, Option.any_eq_true]
    simp only [decide_eq_true_eq]
    constructor
    · rintro ⟨span, found, before⟩
      by_contra behind
      rw [List.getElem?_append_right (by omega)] at found
      have := aheadAfter span (List.mem_of_getElem? found)
      omega
    · intro before
      rw [List.getElem?_append_left before, List.getElem?_eq_getElem before]
      exact ⟨_, rfl, endedBefore _ (List.getElem_mem before)⟩

/-- The class looked up for a character is the one that the spans say it has. -/
theorem classAt_eq_declaredClass
    {styled : StyledText} (wellFormed : styled.isWellFormed = true) (index : Nat) :
    styled.classAt index = declaredClass styled.spans index := by
  have ordered := isWellFormed_iff.mp wellFormed
  obtain ⟨ended, ahead, parts, endedBefore, aheadAfter⟩ := exists_ended_ahead ordered index
  rw [classAt, parts, (endsAt_length endedBefore aheadAfter).endedBy, List.getElem?_toArray,
    List.getElem?_append_right (Nat.le_refl _), Nat.sub_self]
  rw [declaredClass_append endedBefore]
  cases ahead with
  | nil => rfl
  | cons span later =>
      have apart := (parts ▸ ordered.apart).sublist (List.sublist_append_right _ _)
      have nonempty := (ordered.inside span (by simp [parts])).1
      have before := aheadAfter span List.mem_cons_self
      rw [List.getElem?_cons_zero, declaredClass_cons]
      dsimp only
      split
      · next started => rw [if_pos (Span.covers_iff.mpr ⟨started, before⟩)]
      · next ahead =>
          rw [if_neg (by rw [Span.covers_iff]; omega), declaredClass_eq_plain]
          intro other member
          have := (List.pairwise_cons.mp apart).1 other member
          omega

/-- The segment that contains the character at an index. -/
def segmentAt? : List Segment → Nat → Option Segment
  | [], _ => none
  | segment :: segments, index =>
    if index < segment.text.length then some segment
    else segmentAt? segments (index - segment.text.length)

theorem segmentAt?_segmentOf_append
    (characters : List Char) (tokenClass : TokenClass) (segments : List Segment) (index : Nat) :
    segmentAt? (segmentOf characters tokenClass ++ segments) index =
      if index < characters.length then some ⟨String.ofList characters, tokenClass⟩
      else segmentAt? segments (index - characters.length) := by
  rw [segmentOf]
  split
  · next empty => simp [empty]
  · rw [List.singleton_append, segmentAt?, String.length_ofList]

/-- The class of the segment of a character is the one that the spans say the character has. -/
theorem segmentAt?_cutFrom
    {spans : List Span} {position : Nat} {rest : List Char}
    (wellFormed : Span.wellFormedFrom (position + rest.length) position spans = true)
    {index : Nat} (inside : index < rest.length) :
    ∃ segment, segmentAt? (cutFrom spans position rest) index = some segment ∧
      segment.tokenClass = declaredClass spans (position + index) := by
  induction spans generalizing position rest index with
  | nil =>
      have found := segmentAt?_segmentOf_append rest .plain [] index
      rw [List.append_nil, if_pos inside] at found
      exact ⟨_, found, rfl⟩
  | cons span spans ih =>
      rw [Span.wellFormedFrom] at wellFormed
      simp only [Bool.and_eq_true, decide_eq_true_eq] at wellFormed
      obtain ⟨⟨⟨after, nonempty⟩, ends⟩, later⟩ := wellFormed
      have bounds := (Span.wellFormedFrom_iff.mp later).1
      simp only [cutFrom, Nat.max_eq_right after, Nat.max_eq_right (Nat.le_of_lt nonempty),
        segmentAt?_segmentOf_append, List.length_take, List.length_drop]
      rw [declaredClass_cons]
      have covers : span.covers (position + index) = true ↔ _ := Span.covers_iff
      split
      · refine ⟨_, rfl, ?_⟩
        rw [if_neg (by rw [covers]; omega), declaredClass_eq_plain]
        intro other member
        have := bounds other member
        omega
      · split
        · exact ⟨_, rfl, by rw [if_pos (by rw [covers]; omega)]⟩
        · rw [if_neg (by rw [covers]; omega)]
          have length : span.stop + (rest.drop (span.stop - position)).length =
              position + rest.length := by
            rw [List.length_drop]
            omega
          have behind :
              position + index - span.stop < (rest.drop (span.stop - position)).length := by
            omega
          rw [← length] at later
          obtain ⟨segment, found, same⟩ := ih later behind
          refine ⟨segment, ?_, ?_⟩
          · rw [← found]
            congr 1
            omega
          · rw [same]
            congr 1
            omega

/-- With well-formed spans every character has the class of the segment that contains it, which is
the class looked up for it and that of the only span that covers it, or plain where no span does.
Behind the last character every place is plain. -/
theorem classAt_agrees (styled : StyledText) (wellFormed : styled.isWellFormed = true) :
    (∀ index < styled.text.length,
      (∃ segment, segmentAt? styled.segments index = some segment ∧
        segment.tokenClass = styled.classAt index) ∧
      (styled.spans.filter (·.covers index) = [] ∧ styled.classAt index = .plain ∨
        ∃ span, styled.spans.filter (·.covers index) = [span] ∧
          styled.classAt index = span.tokenClass)) ∧
      ∀ index, styled.text.length ≤ index → styled.classAt index = .plain := by
  have ordered := isWellFormed_iff.mp wellFormed
  constructor
  · intro index inside
    rw [classAt_eq_declaredClass wellFormed]
    refine ⟨?_, filter_covers_cases ordered.apart index⟩
    rw [segments_eq_cutFrom]
    rw [isWellFormed, Span.wellFormed] at wellFormed
    rw [← Nat.zero_add styled.text.toList.length] at wellFormed
    obtain ⟨segment, found, same⟩ :=
      segmentAt?_cutFrom wellFormed (by rwa [String.length_toList])
    exact ⟨segment, found, by rw [same, Nat.zero_add]⟩
  · intro index behind
    rw [classAt_eq_declaredClass wellFormed, ← List.append_nil styled.spans, declaredClass_append]
    · rfl
    · intro span member
      exact Nat.le_trans (ordered.inside span member).2 behind

/-- An assignment with bold strings, and a line that begins with a keyword. -/
def assignment : StyledText :=
  .highlighted .rust "é = \"ü\"\nif m"
    [⟨0, 1, .tag⟩, ⟨4, 5, .string⟩, ⟨5, 7, .string⟩, ⟨8, 10, .keyword⟩]
    { Palette.standard with string := ⟨.solid 206 145 120, true, false⟩ }

theorem classAt_agrees_assignment :
    assignment.isWellFormed = true ∧
      (∃ segment, segmentAt? assignment.segments 5 = some segment ∧
        segment.tokenClass = .string) ∧
      assignment.spans.filter (·.covers 5) = [⟨5, 7, .string⟩] ∧
      assignment.classAt 5 = .string ∧ assignment.classAt 12 = .plain := by
  have wellFormed : assignment.isWellFormed = true := by decide
  obtain ⟨inside, behind⟩ := classAt_agrees assignment wellFormed
  obtain ⟨⟨segment, contains, same⟩, _⟩ := inside 5 (by decide)
  have found : assignment.classAt 5 = .string := by decide
  exact
    ⟨wellFormed, ⟨segment, contains, same.trans found⟩, by decide, found, behind 12 (by decide)⟩

end StyledText

end SourcePreview
