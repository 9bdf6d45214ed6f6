import SourcePreview.Language.Basic
import SourcePreview.Text.Cut
import SourcePreview.Theme.Palette
import SourcePreview.Token

/-!
# Styled texts

A text with the spans of its tokens and the palette to show them with.  It can be cut into
segments, each of one token class, and asked for the token class of a character.
-/

namespace SourcePreview

/-- A text with its spans and its palette. -/
structure StyledText where
  /-- The language that the spans were found for. -/
  language : Language
  /-- The text that the spans count the characters of. -/
  text : String
  /-- The spans; what they leave out is plain. -/
  spans : List Span
  /-- The palette to show the spans with. -/
  palette : Palette
  /-- Whether highlighting was skipped or given up. -/
  degraded : Bool
deriving DecidableEq, Repr, Inhabited

/-- A stretch of text of one token class. -/
structure Segment where
  text : String
  tokenClass : TokenClass
deriving DecidableEq, Repr

namespace StyledText

/-- A text whose highlighting was completed. -/
def highlighted
    (language : Language) (text : String) (spans : List Span) (palette : Palette) :
    StyledText :=
  ⟨language, text, spans, palette, false⟩

/-- A text without spans, for when highlighting cannot be completed. -/
def withoutSpans (language : Language) (text : String) (palette : Palette) : StyledText :=
  ⟨language, text, [], palette, true⟩

/-- Whether the spans are non-empty, in order, apart from each other and inside the text. -/
def isWellFormed (styled : StyledText) : Bool :=
  Span.wellFormed styled.text.toList.length styled.spans

/-- The style of a token class in the palette. -/
def styleFor (styled : StyledText) (tokenClass : TokenClass) : Style :=
  styled.palette.style tokenClass

/-- Narrows the place where spans stop ending at or before `index` down to one span, by halving
a stretch of `size` spans that starts at `base`; `rounds` bounds the halvings. -/
def narrow
    (spans : Array Span) (index : Nat) :
    (rounds base size : Nat) → Nat
  | 0, base, _ => base
  | rounds + 1, base, size =>
    if 1 < size then
      let half := size / 2
      let middle := base + half
      let ended := spans[middle]?.any fun span => span.stop ≤ index
      narrow spans index rounds (if ended then middle else base) (size - half)
    else base

/-- How many spans, all at the front, end at or before `index`. -/
def endedBy (spans : Array Span) (index : Nat) : Nat :=
  if spans.isEmpty then 0
  else
    let base := narrow spans index spans.size 0 spans.size
    if spans[base]?.any fun span => span.stop ≤ index then base + 1 else base

/-- The token class of the character at an index. -/
def classAt (styled : StyledText) (index : Nat) : TokenClass :=
  let spans := styled.spans.toArray
  match spans[endedBy spans index]? with
  | some span => if span.start ≤ index then span.tokenClass else .plain
  | none => .plain

/-- Where a walk over the segments of a text has come to. -/
structure Position where
  /-- The spans that are not behind yet. -/
  pending : List Span
  /-- How many characters are behind. -/
  character : Nat
  /-- How many bytes are behind. -/
  byte : Nat
deriving DecidableEq, Repr

/-- Characters of one token class that a walk comes to next. -/
structure Run where
  /-- How many characters there are, unless the text ends before. -/
  count : Nat
  tokenClass : TokenClass
  /-- The spans that are not behind after them. -/
  pending : List Span
deriving DecidableEq, Repr

/-- What a walk comes to next. -/
inductive Step where
  /-- The end of the text. -/
  | ended
  /-- A byte offset inside a character, where the text cannot be cut. -/
  | torn
  /-- A segment, and the position behind it. -/
  | passed (segment : Segment) (position : Position)
deriving DecidableEq, Repr

/-- The run at a position: up to the start of the next span, or, from there on, up to its end.
Behind the last span it is all that is left, for which the number of bytes is enough. -/
def runAt (styled : StyledText) (position : Position) : Run :=
  match position.pending with
  | [] => ⟨styled.text.utf8ByteSize, .plain, []⟩
  | span :: spans =>
    if position.character < span.start then
      ⟨span.start - position.character, .plain, span :: spans⟩
    else ⟨span.stop - position.character, span.tokenClass, spans⟩

/-- Passes the run at a position, which may be empty. -/
def step (styled : StyledText) (position : Position) : Step :=
  if styled.text.utf8ByteSize ≤ position.byte then .ended
  else
    let run := styled.runAt position
    let count := min run.count styled.text.utf8ByteSize
    match Text.byteAfter? styled.text position.byte count with
    | none => .torn
    | some byte =>
      match Text.stretch? styled.text position.byte byte with
      | none => .torn
      | some stretch =>
        .passed ⟨stretch, run.tokenClass⟩ ⟨run.pending, position.character + count, byte⟩

/-- How many bytes and spans are ahead of a position. -/
def ahead (styled : StyledText) (position : Position) : Nat :=
  (styled.text.utf8ByteSize - position.byte) + position.pending.length

/-- A run uses up a span, or it has characters. -/
theorem runAt_gets_on
    (styled : StyledText) (position : Position) (nonempty : 0 < styled.text.utf8ByteSize) :
    (styled.runAt position).pending.length < position.pending.length ∨
      (styled.runAt position).pending.length ≤ position.pending.length ∧
        0 < (styled.runAt position).count := by
  rw [runAt]
  split
  · exact Or.inr ⟨Nat.zero_le _, nonempty⟩
  · next span spans pending =>
      rw [pending]
      split
      · next gap => exact Or.inr ⟨Nat.le_refl _, Nat.sub_pos_of_lt gap⟩
      · exact Or.inl (Nat.lt_succ_self _)

/-- A step that passes a run gets on. -/
theorem ahead_lt_of_step
    {styled : StyledText} {position after : Position} {segment : Segment}
    (passed : styled.step position = .passed segment after) :
    styled.ahead after < styled.ahead position := by
  simp only [step] at passed
  split at passed
  · cases passed
  · next before =>
      split at passed
      · cases passed
      · next byte leads =>
          split at passed
          · cases passed
          · cases passed
            have notBack := Text.le_of_byteAfter? leads
            have onward (positive : 0 < (styled.runAt position).count) : position.byte < byte :=
              Text.lt_of_byteAfter? (by omega) (by omega) leads
            have spent := styled.runAt_gets_on position (by omega)
            simp only [ahead]
            omega

/-- Goes on to the next segment that is not empty. -/
def next (styled : StyledText) (position : Position) : Step :=
  match _ : styled.step position with
  | .passed segment after =>
    if segment.text.isEmpty then styled.next after else .passed segment after
  | .ended => .ended
  | .torn => .torn
termination_by styled.ahead position
decreasing_by exact ahead_lt_of_step ‹_›

/-- Finding a segment gets on. -/
theorem ahead_lt_of_next
    {styled : StyledText} {position after : Position} {segment : Segment}
    (found : styled.next position = .passed segment after) :
    styled.ahead after < styled.ahead position := by
  fun_induction next styled position with
  | case1 position run middle stepped empty ih =>
      exact Nat.lt_trans (ih found) (ahead_lt_of_step stepped)
  | case2 position run middle stepped full =>
      cases found
      exact ahead_lt_of_step stepped
  | case3 position stepped => cases found
  | case4 position stepped => cases found

/-- The segments from a position on. -/
def segmentsFrom (styled : StyledText) (position : Position) : List Segment :=
  match _ : styled.next position with
  | .passed segment after => segment :: styled.segmentsFrom after
  | .ended => []
  | .torn => []
termination_by styled.ahead position
decreasing_by exact ahead_lt_of_next ‹_›

/-- The beginning of the text, with all spans ahead. -/
def start (styled : StyledText) : Position :=
  ⟨styled.spans, 0, 0⟩

/-- The text as a sequence of non-empty segments. -/
def segments (styled : StyledText) : List Segment :=
  styled.segmentsFrom styled.start

end StyledText

end SourcePreview
