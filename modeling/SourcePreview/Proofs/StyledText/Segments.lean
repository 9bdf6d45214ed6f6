import SourcePreview.StyledText
import SourcePreview.Proofs.Text.Cutting
import Mathlib.Logic.Relation

/-!
# The segments of a text

The walk over a text keeps a count of characters and a count of bytes, and the spans tell it how
far to go in characters only.  As long as there is text ahead the two counts stay in step, whatever
the spans are; the count of characters goes wrong at the end alone, where nothing depends on it
any more.  So the walk never meets the inside of a character, and its segments are those that the
characters alone would give.  Main statement: `segments_partition`.
-/

namespace SourcePreview.StyledText

/-- Some characters as a segment, unless there are none. -/
def segmentOf (characters : List Char) (tokenClass : TokenClass) : List Segment :=
  if characters = [] then [] else [⟨String.ofList characters, tokenClass⟩]

@[simp]
theorem segmentOf_nil (tokenClass : TokenClass) : segmentOf [] tokenClass = [] := rfl

/-- The segments of the characters from a position on, without any count of bytes.  Each span
gives a plain segment up to its start and one of its own class up to its end, as far as it is not
behind already. -/
def cutFrom : List Span → (position : Nat) → List Char → List Segment
  | [], _, rest => segmentOf rest .plain
  | span :: spans, position, rest =>
    let start := max position span.start
    let stop := max start span.stop
    segmentOf (rest.take (start - position)) .plain ++
      (segmentOf ((rest.drop (start - position)).take (stop - start)) span.tokenClass ++
        cutFrom spans stop (rest.drop (stop - position)))

theorem cutFrom_nil (spans : List Span) (position : Nat) : cutFrom spans position [] = [] := by
  induction spans generalizing position with
  | nil => rfl
  | cons span spans ih => simp [cutFrom, ih]

/-- Cutting cuts off one run after the other. -/
theorem cutFrom_runAt
    {styled : StyledText} {position : Position} {rest : List Char}
    (short : rest.length ≤ styled.text.utf8ByteSize) :
    cutFrom position.pending position.character rest =
      segmentOf (rest.take (styled.runAt position).count) (styled.runAt position).tokenClass ++
        cutFrom (styled.runAt position).pending
          (position.character + (styled.runAt position).count)
          (rest.drop (styled.runAt position).count) := by
  rw [runAt]
  split
  · next none =>
      rw [none, List.take_of_length_le short, List.drop_of_length_le short, cutFrom_nil,
        List.append_nil, cutFrom]
  · next span spans some =>
      rw [some]
      split
      · next gap =>
          have start : position.character + (span.start - position.character) = span.start := by
            omega
          simp only [cutFrom, start, Nat.max_eq_right (Nat.le_of_lt gap), Nat.max_self,
            Nat.sub_self, List.take_zero, segmentOf_nil, List.nil_append, List.drop_drop]
          congr 4
          omega
      · next reached =>
          have start : max position.character span.start = position.character := by omega
          have stop :
              position.character + (span.stop - position.character) =
                max position.character span.stop := by
            omega
          simp only [cutFrom, start, Nat.sub_self, List.take_zero, List.drop_zero,
            segmentOf_nil, List.nil_append, stop]
          rw [← stop, Nat.add_sub_cancel_left]

/-- A position stands between two parts of a text.  Behind the last character it may count too
many of them, but never more than twice as many as there are bytes. -/
structure StandsBetween
    (styled : StyledText) (position : Position) (passed : String) (rest : List Char) : Prop where
  parts : styled.text = passed ++ String.ofList rest
  byte_eq : position.byte = passed.utf8ByteSize
  character_eq : rest ≠ [] → position.character = passed.length
  character_le : position.character ≤ 2 * styled.text.utf8ByteSize

namespace StandsBetween

variable
    {styled : StyledText} {position : Position} {passed : String} {rest : List Char}

theorem start (styled : StyledText) :
    StandsBetween styled styled.start "" styled.text.toList where
  parts := by rw [String.ofList_toList, String.empty_append]
  byte_eq := rfl
  character_eq _ := rfl
  character_le := Nat.zero_le _

theorem size_eq (stands : StandsBetween styled position passed rest) :
    styled.text.utf8ByteSize = passed.utf8ByteSize + (String.ofList rest).utf8ByteSize := by
  rw [stands.parts, String.utf8ByteSize_append]

theorem length_le (stands : StandsBetween styled position passed rest) :
    rest.length ≤ styled.text.utf8ByteSize := by
  have short := Text.length_le_utf8ByteSize rest
  rw [stands.size_eq]
  omega

/-- Behind the last character the walk ends. -/
theorem step_eq_ended (stands : StandsBetween styled position passed []) :
    styled.step position = .ended := by
  have size : styled.text.utf8ByteSize = passed.utf8ByteSize := by simpa using stands.size_eq
  rw [step, if_pos (Nat.le_of_eq (size.trans stands.byte_eq.symm))]

/-- The text is long enough for a run that leaves characters ahead. -/
theorem min_count_eq
    (stands : StandsBetween styled position passed rest) {count : Nat}
    (more : rest.drop count ≠ []) :
    min count styled.text.utf8ByteSize = count := by
  have short := stands.length_le
  rw [Ne, List.drop_eq_nil_iff] at more
  omega

theorem parts_take
    (stands : StandsBetween styled position passed rest) (count : Nat) :
    styled.text =
      passed ++ String.ofList (rest.take count) ++ String.ofList (rest.drop count) := by
  rw [String.append_assoc, ← String.ofList_append, List.take_append_drop]
  exact stands.parts

/-- Passing a run keeps the counts in step. -/
theorem pass
    (stands : StandsBetween styled position passed rest) (ahead : rest ≠ []) (run : Run) :
    StandsBetween styled
      ⟨run.pending, position.character + min run.count styled.text.utf8ByteSize,
        (passed ++ String.ofList (rest.take run.count)).utf8ByteSize⟩
      (passed ++ String.ofList (rest.take run.count)) (rest.drop run.count) where
  parts := stands.parts_take run.count
  byte_eq := rfl
  character_eq more := by
    have inStep := stands.character_eq ahead
    rw [stands.min_count_eq more, String.length_append, String.length_ofList, List.length_take]
    rw [Ne, List.drop_eq_nil_iff] at more
    dsimp only
    omega
  character_le := by
    have inStep := stands.character_eq ahead
    have size := stands.size_eq
    have passedShort := Text.length_le_utf8ByteSize passed.toList
    rw [String.ofList_toList, String.length_toList] at passedShort
    dsimp only
    omega

/-- In front of a character a step passes the run there. -/
theorem step_eq_passed
    (stands : StandsBetween styled position passed rest) (ahead : rest ≠ []) :
    styled.step position =
      .passed
        ⟨String.ofList (rest.take (styled.runAt position).count),
          (styled.runAt position).tokenClass⟩
        ⟨(styled.runAt position).pending,
          position.character + min (styled.runAt position).count styled.text.utf8ByteSize,
          (passed ++ String.ofList (rest.take (styled.runAt position).count)).utf8ByteSize⟩ := by
  have short := stands.length_le
  have taken :
      rest.take (min (styled.runAt position).count styled.text.utf8ByteSize) =
        rest.take (styled.runAt position).count := by
    rw [List.take_eq_take_iff]
    omega
  have before : ¬ styled.text.utf8ByteSize ≤ position.byte := by
    have size := stands.size_eq
    have byte := stands.byte_eq
    have restShort := Text.length_le_utf8ByteSize rest
    have positive := List.length_pos_iff.mpr ahead
    omega
  have leads :=
    Text.byteAfter?_of_eq_append stands.parts
      (min (styled.runAt position).count styled.text.utf8ByteSize)
  rw [taken] at leads
  rw [step, if_neg before]
  simp only [stands.byte_eq, leads, Text.stretch?_of_eq_append (stands.parts_take _)]

/-- Behind the run the walk stands between two parts of the text again. -/
theorem exists_step_eq_passed
    (stands : StandsBetween styled position passed rest) (ahead : rest ≠ []) :
    ∃ after,
      styled.step position =
          .passed
            ⟨String.ofList (rest.take (styled.runAt position).count),
              (styled.runAt position).tokenClass⟩
            after ∧
        StandsBetween styled after
          (passed ++ String.ofList (rest.take (styled.runAt position).count))
          (rest.drop (styled.runAt position).count) ∧
        after.pending = (styled.runAt position).pending ∧
        (rest.drop (styled.runAt position).count ≠ [] →
          after.character = position.character + (styled.runAt position).count) :=
  ⟨_, stands.step_eq_passed ahead, stands.pass ahead _, rfl, fun more =>
    congrArg (position.character + ·) (stands.min_count_eq more)⟩

end StandsBetween

section

variable {styled : StyledText} {position after : Position} {segment : Segment}

theorem next_of_passed (stepped : styled.step position = .passed segment after) :
    styled.next position =
      if segment.text.isEmpty then styled.next after else .passed segment after := by
  rw [next]
  split <;> simp_all

theorem next_of_ended (stepped : styled.step position = .ended) :
    styled.next position = .ended := by
  rw [next]
  split <;> simp_all

theorem segmentsFrom_of_passed (found : styled.next position = .passed segment after) :
    styled.segmentsFrom position = segment :: styled.segmentsFrom after := by
  rw [segmentsFrom]
  split <;> simp_all

theorem segmentsFrom_of_ended (found : styled.next position = .ended) :
    styled.segmentsFrom position = [] := by
  rw [segmentsFrom]
  split <;> simp_all

/-- The segments from a position on depend on what comes next only. -/
theorem segmentsFrom_congr (same : styled.next position = styled.next after) :
    styled.segmentsFrom position = styled.segmentsFrom after := by
  rw [segmentsFrom.eq_def styled position, segmentsFrom.eq_def styled after]
  split <;> split <;> simp_all

/-- One step contributes its run, unless that is empty. -/
theorem segmentsFrom_of_step (stepped : styled.step position = .passed segment after) :
    styled.segmentsFrom position =
      (if segment.text.isEmpty then [] else [segment]) ++ styled.segmentsFrom after := by
  have found := next_of_passed stepped
  split at found
  · next empty => rw [if_pos empty, List.nil_append, segmentsFrom_congr found]
  · next full =>
      rw [if_neg full, segmentsFrom_of_passed found, List.singleton_append]

end

/-- A segment of no characters is none. -/
theorem segmentOf_eq_ite (characters : List Char) (tokenClass : TokenClass) :
    segmentOf characters tokenClass =
      if (String.ofList characters).isEmpty then []
      else [⟨String.ofList characters, tokenClass⟩] := by
  rw [segmentOf]
  simp

/-- From every position between two parts of the text, the walk gives the segments that the
characters ahead have. -/
theorem StandsBetween.segmentsFrom_eq
    {styled : StyledText} {position : Position} {passed : String} {rest : List Char}
    (stands : StandsBetween styled position passed rest) :
    styled.segmentsFrom position = cutFrom position.pending position.character rest := by
  induction ahead : styled.ahead position using Nat.strongRecOn
    generalizing position passed rest with
  | ind ahead ih =>
      by_cases atEnd : rest = []
      · subst atEnd
        rw [segmentsFrom_of_ended (next_of_ended stands.step_eq_ended), cutFrom_nil]
      · obtain ⟨after, stepped, standsAfter, pending, character⟩ :=
          stands.exists_step_eq_passed atEnd
        rw [segmentsFrom_of_step stepped, ← segmentOf_eq_ite,
          ih _ (ahead ▸ ahead_lt_of_step stepped) standsAfter rfl, pending,
          cutFrom_runAt stands.length_le]
        congr 1
        -- Only behind the last character may the count of characters be wrong.
        by_cases more : rest.drop (styled.runAt position).count = []
        · rw [more, cutFrom_nil, cutFrom_nil]
        · rw [character more]

/-- The segments of a text are those that its characters alone give. -/
theorem segments_eq_cutFrom (styled : StyledText) :
    styled.segments = cutFrom styled.spans 0 styled.text.toList :=
  (StandsBetween.start styled).segmentsFrom_eq

theorem flatMap_segmentOf (characters : List Char) (tokenClass : TokenClass) :
    (segmentOf characters tokenClass).flatMap (·.text.toList) = characters := by
  rw [segmentOf]
  split
  · next empty => rw [empty, List.flatMap_nil]
  · rw [List.flatMap_singleton, String.toList_ofList]

theorem text_ne_of_mem_segmentOf
    {characters : List Char} {tokenClass : TokenClass} {segment : Segment}
    (member : segment ∈ segmentOf characters tokenClass) :
    segment.text ≠ "" := by
  rw [segmentOf] at member
  split at member
  · cases member
  · next full =>
      rw [List.mem_singleton.mp member]
      simpa using full

/-- The segments put together are the characters that were cut. -/
theorem flatMap_cutFrom (spans : List Span) (position : Nat) (rest : List Char) :
    (cutFrom spans position rest).flatMap (·.text.toList) = rest := by
  induction spans generalizing position rest with
  | nil => exact flatMap_segmentOf rest .plain
  | cons span spans ih =>
      have meet :
          rest.drop (max (max position span.start) span.stop - position) =
            (rest.drop (max position span.start - position)).drop
              (max (max position span.start) span.stop - max position span.start) := by
        rw [List.drop_drop]
        congr 1
        omega
      rw [cutFrom, List.flatMap_append, List.flatMap_append, flatMap_segmentOf,
        flatMap_segmentOf, ih, meet, List.take_append_drop, List.take_append_drop]

theorem text_ne_of_mem_cutFrom
    {spans : List Span} {position : Nat} {rest : List Char} {segment : Segment}
    (member : segment ∈ cutFrom spans position rest) :
    segment.text ≠ "" := by
  induction spans generalizing position rest with
  | nil => exact text_ne_of_mem_segmentOf member
  | cons span spans ih =>
      rw [cutFrom, List.mem_append, List.mem_append] at member
      obtain skipped | covered | later := member
      · exact text_ne_of_mem_segmentOf skipped
      · exact text_ne_of_mem_segmentOf covered
      · exact ih later

/-- The characters of the segments of a text are those of the text. -/
theorem flatMap_segments (styled : StyledText) :
    styled.segments.flatMap (·.text.toList) = styled.text.toList := by
  rw [segments_eq_cutFrom, flatMap_cutFrom]

/-- One position follows another by a step, which may pass an empty run. -/
def Follows (styled : StyledText) (position after : Position) : Prop :=
  ∃ segment, styled.step position = .passed segment after

/-- A walk from one position to another with the segments that it finds. -/
inductive Walks (styled : StyledText) : Position → List Segment → Position → Prop where
  | stay (position : Position) : Walks styled position [] position
  | find
      {position middle last : Position} {segment : Segment} {segments : List Segment}
      (found : styled.next position = .passed segment middle)
      (walks : Walks styled middle segments last) :
      Walks styled position (segment :: segments) last

/-- All positions that steps lead to stand between two parts of the text. -/
theorem exists_standsBetween
    {styled : StyledText} {position : Position}
    (reached : Relation.ReflTransGen styled.Follows styled.start position) :
    ∃ passed rest, StandsBetween styled position passed rest := by
  induction reached with
  | refl => exact ⟨_, _, .start styled⟩
  | tail _ follows ih =>
      obtain ⟨passed, rest, stands⟩ := ih
      obtain ⟨segment, stepped⟩ := follows
      have ahead : rest ≠ [] := by
        rintro rfl
        rw [stands.step_eq_ended] at stepped
        cases stepped
      obtain ⟨after, passes, standsAfter, _⟩ := stands.exists_step_eq_passed ahead
      rw [stepped] at passes
      cases passes
      exact ⟨_, _, standsAfter⟩

/-- The walk from a position between two parts of the text ends at the end of the text. -/
theorem StandsBetween.exists_walks
    {styled : StyledText} {position : Position} {passed : String} {rest : List Char}
    (stands : StandsBetween styled position passed rest) :
    ∃ last, styled.Walks position (styled.segmentsFrom position) last ∧
      styled.next last = .ended := by
  induction ahead : styled.ahead position using Nat.strongRecOn
    generalizing position passed rest with
  | ind ahead ih =>
      by_cases atEnd : rest = []
      · subst atEnd
        have ended := next_of_ended stands.step_eq_ended
        rw [segmentsFrom_of_ended ended]
        exact ⟨position, .stay position, ended⟩
      · obtain ⟨after, stepped, standsAfter, _⟩ := stands.exists_step_eq_passed atEnd
        obtain ⟨last, walks, ended⟩ := ih _ (ahead ▸ ahead_lt_of_step stepped) standsAfter rfl
        have found := next_of_passed stepped
        split at found
        · rw [segmentsFrom_congr found]
          generalize styled.segmentsFrom after = segments at walks ⊢
          cases walks with
          | stay => exact ⟨position, .stay position, found.trans ended⟩
          | find foundAfter walks => exact ⟨last, .find (found.trans foundAfter) walks, ended⟩
        · rw [segmentsFrom_of_passed found]
          exact ⟨last, .find found walks, ended⟩

/-- The walk over a text ends at its end, whatever the spans are.  No position on its way is inside
a character, and the count of characters stays below twice the number of bytes, so that it fits
into a machine integer wherever the text fits into half of the memory.  The segments found are not
empty, and put together they are the text. -/
theorem segments_partition (styled : StyledText) :
    (∃ last, styled.Walks styled.start styled.segments last ∧ styled.next last = .ended) ∧
      (∀ position, Relation.ReflTransGen styled.Follows styled.start position →
        String.Pos.Raw.IsValid styled.text ⟨position.byte⟩ ∧ styled.step position ≠ .torn ∧
          position.character ≤ 2 * styled.text.utf8ByteSize) ∧
      (∀ segment ∈ styled.segments, segment.text ≠ "") ∧
      String.join (styled.segments.map Segment.text) = styled.text := by
  refine ⟨(StandsBetween.start styled).exists_walks, ?_, ?_, ?_⟩
  · intro position reached
    obtain ⟨passed, rest, stands⟩ := exists_standsBetween reached
    refine ⟨stands.byte_eq ▸ Text.isValid_of_eq_append stands.parts, ?_, stands.character_le⟩
    by_cases atEnd : rest = []
    · subst atEnd
      rw [stands.step_eq_ended]
      exact Step.noConfusion
    · obtain ⟨after, stepped, _⟩ := stands.exists_step_eq_passed atEnd
      rw [stepped]
      exact Step.noConfusion
  · intro segment member
    rw [segments_eq_cutFrom] at member
    exact text_ne_of_mem_cutFrom member
  · rw [← String.toList_inj, String.toList_join, List.flatMap_map]
    exact flatMap_segments styled

/-- A text with a reversed span, one that overlaps it, an empty one and one far beyond the end. -/
def overlapping : StyledText :=
  .highlighted .rust "é = \"ü\""
    [⟨4, 2, .keyword⟩, ⟨3, 5, .string⟩, ⟨1, 1, .tag⟩, ⟨4, 18446744073709551615, .string⟩] .standard

theorem segments_partition_overlapping :
    Relation.ReflTransGen overlapping.Follows overlapping.start ⟨overlapping.spans, 4, 5⟩ ∧
      String.Pos.Raw.IsValid overlapping.text ⟨5⟩ ∧
      (⟨"ü\"", .string⟩ : Segment) ∈ overlapping.segments ∧ "ü\"" ≠ "" ∧
      String.join (overlapping.segments.map Segment.text) = "é = \"ü\"" := by
  have reached :
      Relation.ReflTransGen overlapping.Follows overlapping.start ⟨overlapping.spans, 4, 5⟩ :=
    .single ⟨⟨"é = ", .plain⟩, by decide +kernel⟩
  have member : (⟨"ü\"", .string⟩ : Segment) ∈ overlapping.segments := by
    rw [segments_eq_cutFrom]
    decide
  obtain ⟨_, positions, nonempty, joined⟩ := segments_partition overlapping
  exact ⟨reached, (positions _ reached).1, member, nonempty _ member, joined⟩

end SourcePreview.StyledText
