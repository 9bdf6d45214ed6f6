import SourcePreview.Proofs.Yaml.Spacing
import SourcePreview.Yaml.Scalar.Plain
import Mathlib.Data.List.Basic

/-!
# Reading printed plain scalars back

A text that is printed without quotes has no character that would end a plain scalar, so it is read
up to the end of its line.  The name of a field is read up to its colon.
-/

namespace SourcePreview.Yaml

namespace Value

theorem hasKeyColon_of_append
    {front rest : List Char} (noColon : hasKeyColon (front ++ rest) = false) :
    hasKeyColon rest = false := by
  induction front with
  | nil => exact noColon
  | cons first front ih =>
      rw [List.cons_append, hasKeyColon, Bool.or_eq_false_iff] at noColon
      exact ih noColon.2

theorem startsGap_of_hasKeyColon
    {front rest : List Char} (noColon : hasKeyColon (front ++ ':' :: rest) = false) :
    startsGap rest = false := by
  have here := hasKeyColon_of_append noColon
  rw [hasKeyColon, Bool.or_eq_false_iff] at here
  exact here.1

/-- Whether a text can be read back without quotes. -/
structure IsPlain (text : List Char) : Prop where
  printable : ArePrintable text
  noBreak : ∀ character ∈ text, isBreak character = false
  noColon : hasKeyColon text = false
  noComment : hasPair isGap (· == '#') text = false
  starts : ∀ character ∈ text.head?, isGap character = false ∧ character ≠ '#'
  ends : text.getLast? ≠ some ' '

theorem isPlain_of_allowsPlain {text : List Char} (allowed : allowsPlain text = true) :
    IsPlain text := by
  simp only [allowsPlain, isSpaced, hasIndicator, Bool.and_eq_true, Bool.not_eq_true',
    Bool.or_eq_false_iff, List.any_eq_false, Bool.not_eq_true, beq_eq_false_iff_ne] at allowed
  obtain ⟨⟨⟨noEscapes, noBreak⟩, noSpace, ends⟩, ⟨⟨_, noIndicator⟩, noColon⟩, noComment⟩ :=
    allowed
  have printable := arePrintable_of_not_needsEscapes noEscapes
  refine ⟨printable, noBreak, noColon, noComment, fun character member => ?_, ends⟩
  have inside := List.mem_of_mem_head? member
  constructor
  · apply isGap_eq_false_of_isPrintable (printable character inside) _ (noBreak character inside)
    rintro rfl
    exact noSpace member
  · rintro rfl
    cases text with
    | nil => cases member
    | cons first rest =>
        obtain rfl : first = '#' := by simpa using member
        simp [startsIndicator] at noIndicator

/-! ## Words -/

/-- Whether a character is a letter, a digit or an underscore. -/
def isWordChar (character : Char) : Bool :=
  character.isAlphanum || character == '_'

/-- Whether some characters are a word of letters, digits and underscores. -/
structure IsWord (word : List Char) : Prop where
  notEmpty : word ≠ []
  isWordChar : ∀ character ∈ word, isWordChar character = true

instance (word : List Char) : Decidable (IsWord word) :=
  decidable_of_iff (word ≠ [] ∧ word.all isWordChar = true)
    ⟨fun both => ⟨both.1, List.all_eq_true.mp both.2⟩,
      fun isWord => ⟨isWord.notEmpty, List.all_eq_true.mpr isWord.isWordChar⟩⟩

theorem ne_of_isWordChar
    {character other : Char} (isWordChar : isWordChar character = true)
    (different : Value.isWordChar other = false) :
    character ≠ other := by
  rintro rfl
  rw [isWordChar] at different
  cases different

theorem isPrintable_of_within
    {character least greatest : Char}
    (within : least.val ≤ character.val ∧ character.val ≤ greatest.val)
    (low : 0x20 ≤ least.toNat) (high : greatest.toNat ≤ 0x7E) :
    isPrintable character = true := by
  have above : 0x20 ≤ character.toNat := Nat.le_trans low within.1
  have below : character.toNat ≤ 0x7E := Nat.le_trans within.2 high
  simp [isPrintable, above, below]

theorem isPrintable_of_isWordChar
    {character : Char} (isWordChar : isWordChar character = true) :
    isPrintable character = true := by
  obtain isAlphanum | isLowLine := Bool.or_eq_true_iff.mp isWordChar
  · obtain isAlpha | isDigit := Bool.or_eq_true_iff.mp isAlphanum
    · obtain isUpper | isLower := Bool.or_eq_true_iff.mp isAlpha
      · have within : 'A'.val ≤ character.val ∧ character.val ≤ 'Z'.val := of_decide_eq_true isUpper
        exact isPrintable_of_within within (by decide) (by decide)
      · obtain ⟨least, greatest⟩ := Bool.and_eq_true_iff.mp isLower
        have within : 'a'.val ≤ character.val ∧ character.val ≤ 'z'.val :=
          ⟨of_decide_eq_true least, of_decide_eq_true greatest⟩
        exact isPrintable_of_within within (by decide) (by decide)
    · obtain ⟨least, greatest⟩ := Bool.and_eq_true_iff.mp isDigit
      have within : '0'.val ≤ character.val ∧ character.val ≤ '9'.val :=
        ⟨of_decide_eq_true least, of_decide_eq_true greatest⟩
      exact isPrintable_of_within within (by decide) (by decide)
  · rw [beq_iff_eq.mp isLowLine]
    rfl

theorem isGap_eq_false_of_isWordChar
    {character : Char} (isWordChar : isWordChar character = true) :
    isGap character = false := by
  rw [← Bool.not_eq_true, isGap, Bool.or_eq_true, isBlank_iff, isBreak_iff]
  rintro ((rfl | rfl) | rfl | rfl | rfl | rfl | rfl)
  all_goals cases isWordChar

theorem hasKeyColon_eq_false_of_not_mem {text : List Char} (noColon : ':' ∉ text) :
    hasKeyColon text = false := by
  induction text with
  | nil => rfl
  | cons first text ih =>
      rw [List.mem_cons, not_or] at noColon
      rw [hasKeyColon, ih noColon.2, Bool.or_false, beq_eq_false_iff_ne.mpr (Ne.symm noColon.1),
        Bool.false_and]

theorem hasPair_eq_false_of_forall
    {isFirst isSecond : Char → Bool} {text : List Char}
    (noFirst : ∀ character ∈ text, isFirst character = false) :
    hasPair isFirst isSecond text = false := by
  induction text with
  | nil => rfl
  | cons first text ih =>
      rw [List.forall_mem_cons] at noFirst
      cases text with
      | nil => rfl
      | cons second text => rw [hasPair, ih noFirst.2, noFirst.1]; rfl

/-- A word can be read back without quotes. -/
theorem IsWord.isPlain {word : List Char} (isWord : IsWord word) : IsPlain word := by
  have noGap : ∀ character ∈ word, isGap character = false :=
    fun character member => isGap_eq_false_of_isWordChar (isWord.isWordChar character member)
  refine
    ⟨fun character member => isPrintable_of_isWordChar (isWord.isWordChar character member),
      fun character member => (isGap_eq_false_iff.mp (noGap character member)).2,
      hasKeyColon_eq_false_of_not_mem fun member => ?_, hasPair_eq_false_of_forall noGap,
      fun character member => ?_, fun isLast => ?_⟩
  · exact absurd rfl (ne_of_isWordChar (isWord.isWordChar ':' member) rfl)
  · have here := List.mem_of_mem_head? member
    exact ⟨noGap character here, ne_of_isWordChar (isWord.isWordChar character here) rfl⟩
  · have here := isWord.isWordChar ' ' (List.mem_of_getLast? isLast)
    exact absurd rfl (ne_of_isWordChar here rfl)

/-! ## Texts without quotes -/

/-- What comes after a space in such a text can be read back too. -/
theorem IsPlain.of_append
    {front rest : List Char} (plain : IsPlain (front ++ ' ' :: rest)) (endsGap : EndsGap rest)
    (notEmpty : rest ≠ []) :
    IsPlain rest := by
  obtain ⟨printable, noBreak, noColon, noComment, _, ends⟩ := plain
  have split : front ++ ' ' :: rest = (front ++ [' ']) ++ rest := by simp
  refine ⟨?_, ?_, ?_, ?_, ?_, ?_⟩
  · exact fun character member => printable character (by simp [member])
  · exact fun character member => noBreak character (by simp [member])
  · rw [split] at noColon
    exact hasKeyColon_of_append noColon
  · rw [split] at noComment
    exact hasPair_of_append noComment
  · intro character member
    refine ⟨endsGap character member, ?_⟩
    rintro rfl
    obtain ⟨others, rfl⟩ : ∃ others, rest = '#' :: others := by
      cases rest with
      | nil => cases member
      | cons first others => exact ⟨others, by simpa using member⟩
    have noHash := not_isSecond_of_not_hasPair (hasPair_of_append noComment) (by decide)
    cases noHash
  · rwa [split, List.getLast?_append_of_ne_nil _ notEmpty] at ends

/-- Such a text is a word, or a word, some spaces and another such text. -/
theorem IsPlain.exists_word
    {text : List Char} (plain : IsPlain text) (notEmpty : text ≠ []) :
    ∃ word,
      word ≠ [] ∧ (∀ character ∈ word, isGap character = false) ∧
        (text = word ∨
          ∃ count rest, text = word ++ (spaces (count + 1) ++ rest) ∧ rest ≠ [] ∧ EndsGap rest ∧
            IsPlain rest) := by
  obtain ⟨word, gap, rest, rfl, noGap, isGap, endsGap, noRest⟩ := Yaml.exists_word Yaml.isGap text
  refine ⟨word, ?_, noGap, ?_⟩
  · rintro rfl
    cases gap with
    | nil => exact notEmpty (noRest rfl)
    | cons first gap =>
        have noGap := (plain.starts first rfl).1
        rw [isGap first List.mem_cons_self] at noGap
        cases noGap
  · cases gap with
    | nil =>
        rw [noRest rfl]
        exact Or.inl (by simp)
    | cons first gap =>
        have inside : ∀ character ∈ first :: gap, character ∈ word ++ (first :: gap ++ rest) :=
          fun character member =>
            List.mem_append_right word (List.mem_append_left rest member)
        have isSpaces : first :: gap = spaces (gap.length + 1) :=
          eq_spaces isGap
            (fun character member => plain.printable character (inside character member))
            fun character member => plain.noBreak character (inside character member)
        rw [isSpaces] at plain ⊢
        have isLast : word ++ (spaces (gap.length + 1) ++ rest) =
            (word ++ spaces gap.length) ++ ' ' :: rest := by
          rw [List.append_assoc, spaces_append_cons, spaces_succ, List.cons_append]
        have someRest : rest ≠ [] := by
          rintro rfl
          rw [isLast] at plain
          exact plain.ends List.getLast?_concat
        refine Or.inr ⟨gap.length, rest, rfl, someRest, endsGap, ?_⟩
        rw [isLast] at plain
        exact plain.of_append endsGap someRest

end Value

namespace Plain

variable {rest : List Char}

/-- A word ends where it must, if no colon in it comes before white space. -/
theorem word?_append
    {word stop : List Char} (noGap : ∀ character ∈ word, isGap character = false)
    (noColon : ∀ front rest, word = front ++ ':' :: rest → startsGap (rest ++ stop) = false)
    (stops : word? false stop = some []) :
    word? false (word ++ stop) = some word := by
  induction word with
  | nil => exact stops
  | cons first word ih =>
      rw [List.forall_mem_cons] at noGap
      have reads :=
        ih noGap.2 fun front rest split => noColon (first :: front) rest (by rw [split]; rfl)
      have noKey : (first == ':' && startsGap (word ++ stop)) = false := by
        cases isColon : first == ':' with
        | false => rfl
        | true =>
            rw [Bool.true_and]
            exact noColon [] word (by rw [eq_of_beq isColon]; rfl)
      rw [List.cons_append, word?, noGap.1, noKey, reads]
      rfl

theorem word?_of_startsGap (starts : startsGap rest = true) : word? false rest = some [] := by
  cases rest with
  | nil => rfl
  | cons first rest =>
      rw [word?, if_pos]
      simpa [startsGap] using starts

section Words

variable {least rounds column : Nat} {reading : Reading} {word : List Char}

/-- What reading a word leads to depends on the white space after it. -/
theorem readWords_of_word?
    {gap : Gap} {stop : Cursor}
    (stands : reading.cursor.StandsAt (word ++ rest) column)
    (notMark : reading.cursor.isAtDocumentMark = false)
    (starts : word.head? ≠ some '#') (notEmpty : word ≠ [])
    (isWord : word? false (word ++ rest) = some word)
    (reads : Gap.none.read? least (reading.cursor.skip word.length) = some (gap, stop)) :
    readWords false least (rounds + 1) reading =
      let next : Reading :=
        ⟨word.reverse ++ (reading.gap.reversedText ++ reading.reversed), gap, stop⟩
      if (!gap.broken && gap.blanks.isEmpty) || stop.column < least then some next
      else readWords false least rounds next := by
  cases word with
  | nil => exact absurd rfl notEmpty
  | cons first word =>
      have notHash : reading.cursor.isAt '#' = false := by
        rw [Cursor.isAt, stands.rest, beq_eq_false_iff_ne]
        exact starts
      rw [readWords, notMark, notHash, stands.rest, isWord]
      dsimp only
      rw [if_neg (by decide), reads]
      dsimp only
      rw [Bool.not_false, Bool.true_and]
      cases !gap.broken && gap.blanks.isEmpty <;> rfl

/-- The first word of a text is read up to the white space after it. -/
theorem word?_of_isPlain
    (after more : List Char) (plain : Value.IsPlain (word ++ after))
    (noGap : ∀ character ∈ word, isGap character = false)
    (starts : startsGap (after ++ more) = true) :
    word? false (word ++ (after ++ more)) = some word := by
  apply word?_append noGap _ (word?_of_startsGap starts)
  rintro front back rfl
  have noColon := plain.noColon
  rw [List.append_assoc] at noColon
  rw [← List.append_assoc]
  exact startsGap_append (Value.startsGap_of_hasKeyColon noColon) more

/-- The words of a text and the spaces between them are read up to the end of the line. -/
theorem readWords_of_isPlain
    (reading : Reading) {text tail : List Char} {endColumn : Nat} (plain : Value.IsPlain text)
    (notEmpty : text ≠ [])
    (stands :
      reading.cursor.StandsAt (text ++ '\n' :: (Value.spaces endColumn ++ tail)) column)
    (inside : 0 < column) (indented : least ≤ column) (ends : endColumn < least)
    (endsGap : EndsGap tail) (enough : text.length < rounds) :
    ∃ stop,
      readWords false least rounds reading =
          some ⟨text.reverse ++ (reading.gap.reversedText ++ reading.reversed),
            ⟨[], true, some '\n', []⟩, stop⟩ ∧
        stop.StandsAt tail endColumn := by
  induction rounds generalizing text reading column with
  | zero => exact absurd enough (Nat.not_lt_zero _)
  | succ rounds ih =>
      have notMark := stands.isAtDocumentMark_eq_false inside
      obtain ⟨word, someWord, noGap, rfl | ⟨count, rest, rfl, someRest, startsRest, plainRest⟩⟩ :=
        plain.exists_word notEmpty
      · have noHash : text.head? ≠ some '#' := fun isHash => (plain.starts '#' isHash).2 rfl
        have atBreak :
            (reading.cursor.skip text.length).StandsAt
              ('\n' :: [] ++ (Value.spaces endColumn ++ tail)) (column + text.length) :=
          stands.skip text
        obtain ⟨stop, reads, stops⟩ := atBreak.read?_breaks least isPrintedBreak_lineFeed endsGap
        refine ⟨stop, ?_, stops⟩
        have isWord :=
          word?_of_isPlain [] ('\n' :: (Value.spaces endColumn ++ tail))
            (by rwa [List.append_nil]) noGap rfl
        rw [readWords_of_word? stands notMark noHash someWord isWord reads]
        dsimp only
        rw [if_pos (by simp [stops.column, ends])]
        rfl
      · rw [List.append_assoc, List.append_assoc] at stands
        have noHash : word.head? ≠ some '#' := fun isHash =>
          (plain.starts '#' ((List.head?_append_of_ne_nil word someWord).trans isHash)).2 rfl
        obtain ⟨stop, reads, stops⟩ :=
          (stands.skip word).read?_spaces least (startsRest.append someRest _)
        have isWord :=
          word?_of_isPlain _ ('\n' :: (Value.spaces endColumn ++ tail)) plain noGap rfl
        rw [List.append_assoc] at isWord
        obtain ⟨last, readsRest, ends⟩ :=
          ih
            ⟨word.reverse ++ (reading.gap.reversedText ++ reading.reversed),
              ⟨Value.spaces (count + 1), false, none, []⟩, stop⟩
            plainRest someRest stops (by omega) (by omega) (by simp at enough; omega)
        refine ⟨last, ?_, ends⟩
        rw [readWords_of_word? stands notMark noHash someWord isWord reads]
        dsimp only
        rw [if_neg, readsRest]
        · simp [Gap.reversedText]
        · simp [Value.spaces_succ, stops.column]
          omega

/-- A text that is printed without quotes is read back up to the end of its line, with the white
space in front of the next one. -/
theorem read?_of_isPlain
    {text tail : List Char} {cursor : Cursor} {endColumn : Nat} (plain : Value.IsPlain text)
    (notEmpty : text ≠ [])
    (stands : cursor.StandsAt (text ++ '\n' :: (Value.spaces endColumn ++ tail)) column)
    (inside : 0 < column) (indented : least ≤ column) (ends : endColumn < least)
    (endsGap : EndsGap tail) :
    ∃ stop,
      read? false least cursor = some (String.ofList text, true, stop) ∧
        stop.StandsAt tail endColumn := by
  have enough : text.length < cursor.rest.length + 1 := by
    rw [stands.rest, List.length_append]
    omega
  obtain ⟨stop, reads, stops⟩ :=
    readWords_of_isPlain ⟨[], Gap.none, cursor⟩ plain notEmpty stands inside indented ends endsGap
      enough
  refine ⟨stop, ?_, stops⟩
  rw [read?, reads]
  simp [Gap.reversedText, Gap.none]

end Words

/-- The name of a field is read up to its colon. -/
theorem read?_name
    (least : Nat) {name : List Char} {cursor : Cursor} {column : Nat}
    (stands : cursor.StandsAt (name ++ ':' :: rest) column)
    (notMark : cursor.isAtDocumentMark = false)
    (isName : ∀ character ∈ name,
      isGap character = false ∧ character ≠ ':' ∧ character ≠ '#')
    (notEmpty : name ≠ []) (starts : startsGap rest = true) :
    read? false least cursor = some (String.ofList name, false, cursor.skip name.length) := by
  have isWord : word? false (name ++ ':' :: rest) = some name := by
    apply word?_append fun character member => (isName character member).1
    · rintro front back rfl
      exact absurd rfl (isName ':' (by simp)).2.1
    · rw [word?, if_neg (by decide)]
      simp [starts]
  have noHash : name.head? ≠ some '#' := fun isHash =>
    (isName '#' (List.mem_of_mem_head? isHash)).2.2 rfl
  have reads := (stands.skip name).read?_of_endsGap least (endsGap_cons_iff.mpr rfl)
  rw [read?, readWords_of_word? stands notMark noHash notEmpty isWord reads]
  simp [Gap.reversedText, Gap.none]

end Plain

end SourcePreview.Yaml
