import SourcePreview.Text.Blank
import SourcePreview.Text.Lines

/-!
# Words and the first line

A run of characters that are not blank is a word whatever stands around it, as long as that is
blank or nothing.  So the words of a line do not depend on how much blank space is between them or
on a carriage return at the end, and the words of the first line are those of the text up to the
first line feed.
-/

namespace SourcePreview.Text

/-- Blank space within one line. -/
def IsGap (gap : List Char) : Prop :=
  ∀ character ∈ gap, isBlank character = true ∧ character ≠ '\n'

instance (gap : List Char) : Decidable (IsGap gap) :=
  List.decidableBAll _ gap

/-- Characters that are not blank. -/
def AreVisible (characters : List Char) : Prop :=
  ∀ character ∈ characters, isBlank character = false

instance (characters : List Char) : Decidable (AreVisible characters) :=
  List.decidableBAll _ characters

/-- Characters that are not blank, at least one. -/
structure IsWord (word : List Char) : Prop where
  nonempty : word ≠ []
  visible : AreVisible word

/-- What can follow a word in its line. -/
structure IsTail (tail : List Char) : Prop where
  apart : ∀ character ∈ tail.head?, isBlank character = true
  oneLine : '\n' ∉ tail

/-- What can follow a line in its text. -/
def EndsLine (rest : List Char) : Prop :=
  rest = [] ∨ (∃ more, rest = '\n' :: more) ∨ ∃ more, rest = '\r' :: '\n' :: more

theorem IsGap.oneLine {gap : List Char} (isGap : IsGap gap) : '\n' ∉ gap :=
  fun isMember => (isGap _ isMember).2 rfl

theorem IsWord.oneLine {word : List Char} (isWord : IsWord word) : '\n' ∉ word := by
  intro isMember
  have visible := isWord.visible _ isMember
  exact absurd visible (by decide)

/-- Blank space that is there keeps a word apart from what comes next. -/
theorem IsGap.apart
    {gap : List Char} (isGap : IsGap gap) (nonempty : gap ≠ []) (rest : List Char) :
    ∀ character ∈ (gap ++ rest).head?, isBlank character = true := by
  obtain ⟨first, others, rfl⟩ := List.exists_cons_of_ne_nil nonempty
  rintro _ ⟨⟩
  exact (isGap _ (by simp)).1

theorem wordsFrom_append_visible
    {characters : List Char} (visible : AreVisible characters)
    (current rest : List Char) :
    wordsFrom current (characters ++ rest) = wordsFrom (characters.reverse ++ current) rest := by
  induction characters generalizing current with
  | nil => rfl
  | cons character characters ih =>
      have first : isBlank character = false := visible _ (by simp)
      rw [List.cons_append, wordsFrom, first, if_neg Bool.false_ne_true,
        ih fun other isMember => visible other (by simp [isMember])]
      simp

/-- Blank space in front of words is no word. -/
theorem blankSeparatedWords_gap_append
    {gap : List Char} (isGap : IsGap gap) (rest : List Char) :
    blankSeparatedWords (gap ++ rest) = blankSeparatedWords rest := by
  induction gap with
  | nil => rfl
  | cons character gap ih =>
      have blank : isBlank character = true := (isGap _ (by simp)).1
      have others : IsGap gap := fun other isMember => isGap other (by simp [isMember])
      rw [← ih others, blankSeparatedWords, List.cons_append, wordsFrom, blank, if_pos rfl]
      rfl

/-- A word with blank space or nothing behind it is the first word. -/
theorem blankSeparatedWords_word_append
    {word tail : List Char} (isWord : IsWord word)
    (apart : ∀ character ∈ tail.head?, isBlank character = true) :
    blankSeparatedWords (word ++ tail) = word :: blankSeparatedWords tail := by
  rw [blankSeparatedWords, wordsFrom_append_visible isWord.visible, List.append_nil]
  cases tail with
  | nil => simp [wordsFrom, blankSeparatedWords, isWord.nonempty]
  | cons character tail =>
      have blank : isBlank character = true := apart _ rfl
      simp [wordsFrom, blankSeparatedWords, blank, isWord.nonempty]

/-- A blank character at the end makes no difference to the words. -/
theorem wordsFrom_append_blank
    {character : Char} (blank : isBlank character = true) (current characters : List Char) :
    wordsFrom current (characters ++ [character]) = wordsFrom current characters := by
  induction characters generalizing current with
  | nil => simp [wordsFrom, blank]
  | cons first characters ih =>
      rw [List.cons_append, wordsFrom, wordsFrom, ih, ih]

theorem blankSeparatedWords_append_blank
    {character : Char} (blank : isBlank character = true) (characters : List Char) :
    blankSeparatedWords (characters ++ [character]) = blankSeparatedWords characters :=
  wordsFrom_append_blank blank [] characters

theorem blankSeparatedWords_finishedLine (reversed : List Char) :
    blankSeparatedWords (finishedLine reversed) = blankSeparatedWords reversed.reverse := by
  rw [finishedLine.eq_def]
  split
  case h_1 rest =>
    rw [List.reverse_cons, blankSeparatedWords_append_blank (by decide)]
  case h_2 => rfl

theorem linesFrom_append_of_notMem
    {characters : List Char} (oneLine : '\n' ∉ characters) (current rest : List Char) :
    linesFrom current (characters ++ rest) = linesFrom (characters.reverse ++ current) rest := by
  induction characters generalizing current with
  | nil => rfl
  | cons character characters ih =>
      rw [List.mem_cons, not_or] at oneLine
      rw [List.cons_append, linesFrom, if_neg (Ne.symm oneLine.1), ih oneLine.2]
      simp

/-- A line that ends with a line feed or the text is finished with the words it has. -/
theorem exists_head?_linesFrom
    {line more : List Char} (nonempty : line ≠ [])
    (ends : more = [] ∨ ∃ others, more = '\n' :: others) :
    ∃ first,
      (linesFrom line.reverse more).head? = some first ∧
        blankSeparatedWords first = blankSeparatedWords line := by
  rcases ends with rfl | ⟨others, rfl⟩
  · exact ⟨line, by simp [linesFrom, nonempty], rfl⟩
  · refine ⟨finishedLine line.reverse, by simp [linesFrom], ?_⟩
    rw [blankSeparatedWords_finishedLine, List.reverse_reverse]

/-- The first line of a text that is cut anywhere behind it has the words of the line. -/
theorem exists_head?_lines
    {line rest more : List Char} (nonempty : line ≠ []) (oneLine : '\n' ∉ line)
    (ends : EndsLine rest) (begins : more <+: rest) :
    ∃ first,
      (lines (line ++ more)).head? = some first ∧
        blankSeparatedWords first = blankSeparatedWords line := by
  have atFeed {left others : List Char} (isBeginning : left <+: '\n' :: others) :
      left = [] ∨ ∃ others, left = '\n' :: others := by
    rcases List.prefix_cons_iff.mp isBeginning with rfl | ⟨others, rfl, -⟩
    · exact .inl rfl
    · exact .inr ⟨others, rfl⟩
  rw [lines, linesFrom_append_of_notMem oneLine, List.append_nil]
  rcases ends with rfl | ⟨others, rfl⟩ | ⟨others, rfl⟩
  case inl => exact exists_head?_linesFrom nonempty (.inl (List.prefix_nil.mp begins))
  case inr.inl => exact exists_head?_linesFrom nonempty (atFeed begins)
  case inr.inr =>
    rcases List.prefix_cons_iff.mp begins with rfl | ⟨left, rfl, leftBegins⟩
    · exact exists_head?_linesFrom nonempty (.inl rfl)
    · -- A carriage return behind the line is read like one more blank character of it.
      have longer : line ++ ['\r'] ≠ [] := by simp
      obtain ⟨first, isFirst, sameWords⟩ := exists_head?_linesFrom longer (atFeed leftBegins)
      rw [List.reverse_append] at isFirst
      rw [blankSeparatedWords_append_blank (by decide)] at sameWords
      rw [linesFrom, if_neg (by decide)]
      exact ⟨first, isFirst, sameWords⟩

end SourcePreview.Text
