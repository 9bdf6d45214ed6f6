import SourcePreview.Proofs.Json.Grammar
import SourcePreview.Text.WordChar
import Mathlib.Data.List.TakeWhile

/-!
# What stands around the lexemes of a text

Outside its strings a JSON text has neither quotes nor backslashes.  So what stands behind a
string, up to the end of the line, either holds no quote or leads to the opening quote of the next
string.
-/

namespace SourcePreview.JsonText

/-- Whether listed characters have a property is decided by going through the list, and not
through all characters. -/
scoped instance (priority := 2000) decidableForallMem
    {α : Type} {property : α → Prop} [DecidablePred property] (listed : List α) :
    Decidable (∀ member ∈ listed, property member) :=
  List.decidableBAll property listed

section

variable {lexeme : Lexeme} {rest : List Lexeme} {spelling : List Char}

/-! ### Numbers -/

/-- Whether a stretch ends in a decimal digit. -/
def EndsInDigit (part : List Char) : Prop :=
  ∃ front last, part = front ++ [last] ∧ last.isDigit = true

theorem EndsInDigit.append
    {part : List Char} (ends : EndsInDigit part) (front : List Char) :
    EndsInDigit (front ++ part) := by
  obtain ⟨middle, last, rfl, isDigit⟩ := ends
  exact ⟨front ++ middle, last, by simp, isDigit⟩

theorem endsInDigit_of_forall
    {digits : List Char} (some : digits ≠ [])
    (allDigits : ∀ digit ∈ digits, digit.isDigit = true) :
    EndsInDigit digits :=
  ⟨digits.dropLast, digits.getLast some, (List.dropLast_append_getLast some).symm,
    allDigits _ (List.getLast_mem some)⟩

theorem IsInteger.forall_isDigit {integer : List Char} (isInteger : IsInteger integer) :
    ∀ digit ∈ integer, digit.isDigit = true := by
  cases isInteger with
  | zero => decide
  | positive leading _ digits => exact List.forall_mem_cons.mpr ⟨leading, digits⟩

theorem IsInteger.ne_nil {integer : List Char} (isInteger : IsInteger integer) :
    integer ≠ [] := by
  cases isInteger <;> simp

theorem IsNumber.endsInDigit (isNumber : IsNumber spelling) : EndsInDigit spelling := by
  obtain ⟨signed, isInteger, isFraction, isExponent⟩ := isNumber
  refine EndsInDigit.append ?_ _
  have wholeEnds := endsInDigit_of_forall isInteger.ne_nil isInteger.forall_isDigit
  cases isExponent with
  | absent =>
      rw [List.append_nil]
      cases isFraction with
      | absent => rwa [List.append_nil]
      | present isDigits =>
          have fractionEnds := endsInDigit_of_forall isDigits.1 isDigits.2
          exact (fractionEnds.append ['.']).append _
  | @present letter sign digits marked signed isDigits =>
      have exponentEnds := endsInDigit_of_forall isDigits.1 isDigits.2
      exact ((exponentEnds.append (letter :: sign)).append _).append _

/-- A number consists of digits, signs, points and the letter of an exponent. -/
theorem IsNumber.forall_mem (isNumber : IsNumber spelling) :
    ∀ character ∈ spelling,
      character.isDigit = true ∨ character ∈ ['-', '+', '.', 'e', 'E'] := by
  obtain @⟨minus, _, _, _, signed, isInteger, isFraction, isExponent⟩ := isNumber
  have minusListed :
      ∀ minus ∈ [[], ['-']], ∀ character ∈ minus, character ∈ ['-', '+', '.', 'e', 'E'] := by
    decide
  simp only [List.forall_mem_append]
  refine
    ⟨fun character member => Or.inr (minusListed minus signed character member),
      fun digit member => Or.inl (isInteger.forall_isDigit digit member), ?_, ?_⟩
  · cases isFraction with
    | absent => simp
    | present isDigits =>
        exact
          List.forall_mem_cons.mpr
            ⟨Or.inr (by decide), fun digit member => Or.inl (isDigits.2 digit member)⟩
  · cases isExponent with
    | absent => simp
    | @present letter sign _ marked signed isDigits =>
        have letterListed :
            ∀ letter ∈ ['e', 'E'], letter ∈ ['-', '+', '.', 'e', 'E'] := by decide
        have signListed :
            ∀ sign ∈ [[], ['+'], ['-']],
              ∀ character ∈ sign, character ∈ ['-', '+', '.', 'e', 'E'] := by
          decide
        rw [List.forall_mem_cons, List.forall_mem_append]
        exact
          ⟨Or.inr (letterListed letter marked),
            fun character member => Or.inr (signListed sign signed character member),
            fun digit member => Or.inl (isDigits.2 digit member)⟩

/-! ### Lexemes without quotes -/

/-- Whether a lexeme is a string, be it a name or a value. -/
def Lexeme.isQuoted : Lexeme → Bool
  | .name _ | .string _ => true
  | _ => false

/-- Whether a run of characters has no quote, no backslash and no line end. -/
def IsPlain (run : List Char) : Prop :=
  ∀ character ∈ run, character ≠ '"' ∧ character ≠ '\\' ∧ character ≠ '\n'

/-- Outside of strings and line ends, lexemes are plain. -/
theorem Fits.isPlain
    (fits : Fits lexeme rest) (notQuoted : lexeme.isQuoted = false)
    (notLineEnd : lexeme ≠ .space '\n') :
    IsPlain lexeme.chars := by
  cases fits with
  | @space character _ listed =>
      have plain : ∀ character ∈ spaces, character ≠ '"' ∧ character ≠ '\\' := by decide
      obtain ⟨notQuote, notBackslash⟩ := plain character listed
      refine List.forall_mem_singleton.mpr ⟨notQuote, notBackslash, ?_⟩
      rintro rfl
      exact notLineEnd rfl
  | structural listed =>
      have plain :
          ∀ character ∈ structurals,
            character ≠ '"' ∧ character ≠ '\\' ∧ character ≠ '\n' := by
        decide
      exact List.forall_mem_singleton.mpr (plain _ listed)
  | name | string => cases notQuoted
  | number isNumber =>
      intro character member
      rcases isNumber.forall_mem character member with isDigit | listed
      · refine ⟨?_, ?_, ?_⟩ <;> rintro rfl <;> cases isDigit
      · have plain :
            ∀ character ∈ ['-', '+', '.', 'e', 'E'],
              character ≠ '"' ∧ character ≠ '\\' ∧ character ≠ '\n' := by
          decide
        exact plain character listed
  | literal listed =>
      have plain :
          ∀ word ∈ literals, ∀ character ∈ word,
            character ≠ '"' ∧ character ≠ '\\' ∧ character ≠ '\n' := by
        decide
      exact plain _ listed

/-- Outside of strings there are no quotes. -/
theorem Fits.ne_quote
    (fits : Fits lexeme rest) (notQuoted : lexeme.isQuoted = false) :
    ∀ character ∈ lexeme.chars, character ≠ '"' := by
  by_cases lineEnd : lexeme = .space '\n'
  · subst lineEnd
    exact List.forall_mem_singleton.mpr (by decide)
  · exact fun character member => (fits.isPlain notQuoted lineEnd character member).1

theorem IsNumber.ne_nil (isNumber : IsNumber spelling) : spelling ≠ [] := by
  obtain ⟨front, last, rfl, _⟩ := isNumber.endsInDigit
  simp

theorem Fits.chars_ne_nil (fits : Fits lexeme rest) : lexeme.chars ≠ [] := by
  cases fits with
  | space | structural | name | string => simp [Lexeme.chars]
  | number isNumber => exact isNumber.ne_nil
  | @literal word _ listed =>
      have spelled : ∀ word ∈ literals, word ≠ [] := by decide
      exact spelled word listed

/-- What may follow a value starts with white space or a closing character. -/
theorem FollowsValue.head_mem
    {lexemes : List Lexeme} (follows : FollowsValue lexemes) :
    ∀ character ∈ (spell lexemes).head?, character ∈ spaces ++ closers := by
  obtain ⟨between, rest, blank, rfl, ends⟩ := follows
  intro character first
  rw [List.mem_append]
  cases between with
  | nil =>
      rcases ends with rfl | ⟨closer, listed, more, rfl⟩
      · cases first
      · obtain rfl : closer = character := by simpa [Lexeme.chars] using first
        exact Or.inr listed
  | cons lexeme between =>
      obtain ⟨⟨space, listed, rfl⟩, _⟩ := List.forall_mem_cons.mp blank
      obtain rfl : space = character := by simpa [Lexeme.chars] using first
      exact Or.inl listed

/-! ### Strings on the same line -/

/-- Whether a text starts, perhaps after blanks, with a colon. -/
def opensWithColon (text : List Char) : Bool :=
  (text.dropWhile Text.isBlank).head? == some ':'

/-- A text is blank up to its first character that is not, and that character decides whether the
text opens with a colon. -/
theorem exists_blank_append (text : List Char) :
    ∃ blank ahead,
      text = blank ++ ahead ∧
      (∀ character ∈ blank, Text.isBlank character = true) ∧
      (∀ character ∈ ahead.head?, Text.isBlank character = false) ∧
      opensWithColon text = (ahead.head? == some ':') := by
  refine
    ⟨text.takeWhile Text.isBlank, text.dropWhile Text.isBlank,
      List.takeWhile_append_dropWhile.symm, fun _ => List.mem_takeWhile_imp, ?_, rfl⟩
  intro character first
  have notBlank := List.head?_dropWhile_not Text.isBlank text
  rwa [first] at notBlank

theorem opensWithColon_append_quote (content more : List Char) :
    opensWithColon (content ++ '"' :: more) = opensWithColon content := by
  unfold opensWithColon
  induction content with
  | nil => rfl
  | cons character content ih =>
      rw [List.cons_append, List.dropWhile_cons, List.dropWhile_cons]
      split
      · exact ih
      · rfl

/-- White space in front does not change whether a text opens with a colon. -/
theorem IsSpace.opensWithColon_append
    {blank : List Lexeme} (isSpace : IsSpace blank) (lexemes : List Lexeme) :
    opensWithColon (spell (blank ++ lexemes)) = opensWithColon (spell lexemes) := by
  have isBlank : ∀ space ∈ spaces, Text.isBlank space = true := by decide
  induction blank with
  | nil => rfl
  | cons lexeme blank ih =>
      obtain ⟨⟨space, listed, rfl⟩, others⟩ := List.forall_mem_cons.mp isSpace
      rw [← ih others]
      simp [opensWithColon, Lexeme.chars, isBlank space listed]

/-- What may follow a value does not open with a colon. -/
theorem FollowsValue.opensWithColon_eq_false
    {lexemes : List Lexeme} (follows : FollowsValue lexemes) :
    opensWithColon (spell lexemes) = false := by
  obtain ⟨between, rest, blank, rfl, ends⟩ := follows
  rw [blank.opensWithColon_append]
  rcases ends with rfl | ⟨closer, listed, more, rfl⟩
  · rfl
  · have notColon :
        ∀ closer ∈ closers, Text.isBlank closer = false ∧ (some closer == some ':') = false := by
      decide
    obtain ⟨notBlank, different⟩ := notColon closer listed
    simpa [opensWithColon, Lexeme.chars, notBlank] using different

/-- What follows a name opens with a colon. -/
theorem Fits.opensWithColon_eq_true
    {content : List Char} (fits : Fits (.name content) rest) :
    opensWithColon (spell rest) = true := by
  cases fits with
  | name _ blank =>
      rw [blank.opensWithColon_append]
      rfl

/-- Whether the next string on the line starts, perhaps after blanks, with a colon. -/
def leadsToColon : List Lexeme → Bool
  | [] => false
  | .space character :: rest => character != '\n' && leadsToColon rest
  | .structural _ :: rest | .number _ :: rest | .literal _ :: rest => leadsToColon rest
  | .name content :: _ | .string content :: _ => opensWithColon content

/-- Whether a lexeme is a string value behind which the next string on the line opens with a
colon. -/
def Lexeme.opensFalseName (rest : List Lexeme) : Lexeme → Bool
  | .string _ => leadsToColon rest
  | _ => false

/-- Whether what stands between two strings of a text looks like the name of a member. -/
def hasFalseName : List Lexeme → Bool
  | [] => false
  | lexeme :: rest => lexeme.opensFalseName rest || hasFalseName rest

theorem opensFalseName_eq_false
    {before after : List Lexeme}
    (noFalseName : hasFalseName (before ++ lexeme :: after) = false) :
    lexeme.opensFalseName after = false := by
  induction before with
  | nil => exact (Bool.or_eq_false_iff.mp noFalseName).1
  | cons first before ih => exact ih (Bool.or_eq_false_iff.mp noFalseName).2

/-- What comes on the rest of a line. -/
inductive Line (lexemes : List Lexeme) : Prop where
  /-- No further string comes. -/
  | ends {run ahead : List Char}
      (spelled : spell lexemes = run ++ ahead) (plain : IsPlain run)
      (lineEnd : ∀ character ∈ ahead.head?, character = '\n')
      (noColon : leadsToColon lexemes = false)
  /-- The next string comes. -/
  | opens {run content more : List Char}
      (spelled : spell lexemes = run ++ '"' :: (content ++ '"' :: more)) (plain : IsPlain run)
      (colon : leadsToColon lexemes = opensWithColon content)

/-- A lexeme without quotes and line ends lengthens the run. -/
theorem Line.cons
    (line : Line rest) (plain : IsPlain lexeme.chars)
    (sameLead : leadsToColon (lexeme :: rest) = leadsToColon rest) :
    Line (lexeme :: rest) := by
  cases line with
  | ends spelled plainRun lineEnd noColon =>
      exact
        Line.ends (by rw [spell_cons, spelled, List.append_assoc])
          (List.forall_mem_append.mpr ⟨plain, plainRun⟩) lineEnd (sameLead.trans noColon)
  | opens spelled plainRun colon =>
      exact
        Line.opens (by rw [spell_cons, spelled, List.append_assoc])
          (List.forall_mem_append.mpr ⟨plain, plainRun⟩) (sameLead.trans colon)

/-- From any lexeme on, the rest of the line leads to the next string or holds no quote. -/
theorem Regular.line {lexemes : List Lexeme} (regular : Regular lexemes) : Line lexemes := by
  induction lexemes with
  | nil => exact Line.ends rfl (List.forall_mem_nil _) (by simp) rfl
  | cons lexeme rest ih =>
      obtain ⟨fits, regularRest⟩ := regular
      cases lexeme with
      | space character =>
          by_cases lineEnd : character = '\n'
          · subst lineEnd
            exact
              Line.ends (List.nil_append _).symm (List.forall_mem_nil _)
                (by simp [Lexeme.chars]) rfl
          · exact
              (ih regularRest).cons (fits.isPlain rfl (by simpa using lineEnd))
                (by simp [leadsToColon, lineEnd])
      | structural | number | literal =>
          exact (ih regularRest).cons (fits.isPlain rfl (by simp)) rfl
      | name content | string content =>
          exact
            @Line.opens _ [] content (spell rest) (by simp [Lexeme.chars])
              (List.forall_mem_nil _) rfl

/-! ### Spans of tokens -/

theorem tokensFrom_cons (index : Nat) (lexeme : Lexeme) (rest : List Lexeme) :
    tokensFrom index (lexeme :: rest) =
      (lexeme.tokenClass?.map fun tokenClass =>
          (⟨index, index + lexeme.chars.length, tokenClass⟩ : Span)).toList ++
        tokensFrom (index + lexeme.chars.length) rest := by
  rw [tokensFrom]
  cases lexeme.tokenClass? <;> rfl

theorem tokensFrom_append (index : Nat) (left right : List Lexeme) :
    tokensFrom index (left ++ right) =
      tokensFrom index left ++ tokensFrom (index + (spell left).length) right := by
  induction left generalizing index with
  | nil => rfl
  | cons lexeme left ih =>
      rw [List.cons_append, tokensFrom_cons, tokensFrom_cons, ih, spell_cons, List.length_append,
        List.append_assoc, Nat.add_assoc]

/-- Tokens start at the index of the first lexeme or later, and not behind the last. -/
theorem bounds_of_mem_tokensFrom
    {index : Nat} {lexemes : List Lexeme} {span : Span}
    (member : span ∈ tokensFrom index lexemes) :
    index ≤ span.start ∧ span.start ≤ index + (spell lexemes).length := by
  induction lexemes generalizing index with
  | nil => cases member
  | cons lexeme rest ih =>
      rw [spell_cons, List.length_append]
      rw [tokensFrom_cons] at member
      rcases List.mem_append.mp member with here | later
      · obtain ⟨tokenClass, _, rfl⟩ := Option.map_eq_some_iff.mp (Option.mem_toList.mp here)
        exact ⟨Nat.le_refl _, Nat.le_add_right _ _⟩
      · have bounds := ih later
        omega

/-- No token starts at the closing quote of a string. -/
theorem ne_start_of_mem_tokens
    {before after : List Lexeme} {content : List Char} {span : Span}
    (member : span ∈ tokens (before ++ .string content :: after)) :
    span.start ≠ (spell before ++ '"' :: content).length := by
  have longer : (Lexeme.string content).chars.length = content.length + 2 := by
    simp [Lexeme.chars]
  rw [tokens, tokensFrom_append, tokensFrom_cons, Nat.zero_add] at member
  rw [List.length_append, List.length_cons]
  rcases List.mem_append.mp member with front | others
  · have bounds := bounds_of_mem_tokensFrom front
    omega
  · rcases List.mem_append.mp others with itself | behind
    · obtain ⟨tokenClass, _, rfl⟩ := Option.map_eq_some_iff.mp (Option.mem_toList.mp itself)
      simp only
      omega
    · have bounds := bounds_of_mem_tokensFrom behind
      omega

/-! ### Edges of words -/

theorem Regular.of_append
    {before after : List Lexeme} (regular : Regular (before ++ after)) : Regular after := by
  induction before with
  | nil => exact regular
  | cons first before ih => exact ih regular.2

theorem FollowsValue.head_eq
    (follows : FollowsValue (lexeme :: rest)) :
    (∃ character, lexeme = .space character) ∨
      ∃ character, lexeme = .structural character := by
  obtain ⟨between, others, blank, parts, ends⟩ := follows
  cases between with
  | nil =>
      obtain rfl | ⟨character, _, more, rfl⟩ := ends
      · cases parts
      · exact Or.inr ⟨character, (List.cons.inj parts).1⟩
  | cons first between =>
      obtain ⟨⟨character, _, rfl⟩, _⟩ := List.forall_mem_cons.mp blank
      exact Or.inl ⟨character, (List.cons.inj parts).1⟩

/-- No word character stands in front of a lexeme that cannot follow a value. -/
theorem Regular.edge
    {before after : List Lexeme} (regular : Regular (before ++ lexeme :: after))
    (notBehind : ¬ FollowsValue (lexeme :: after)) :
    ∀ character ∈ (spell before).getLast?, Text.isWordChar character = false := by
  rcases List.eq_nil_or_concat' before with rfl | ⟨front, prior, rfl⟩
  · simp
  · rw [List.append_assoc] at regular
    rw [spell_append, spell_cons, spell_nil, List.append_nil]
    obtain ⟨fits, _⟩ : Regular (prior :: lexeme :: after) := regular.of_append
    generalize lexeme :: after = coming at fits notBehind
    cases fits with
    | @space character _ listed =>
        have noWord : ∀ character ∈ spaces, Text.isWordChar character = false := by decide
        simpa [Lexeme.chars] using noWord character listed
    | @structural character _ listed =>
        have noWord : ∀ character ∈ structurals, Text.isWordChar character = false := by
          decide
        simpa [Lexeme.chars] using noWord character listed
    | name | string =>
        have noWord : Text.isWordChar '"' = false := by decide
        rw [Lexeme.chars, ← List.append_assoc, List.getLast?_concat]
        simpa using noWord
    | number _ follows | literal _ follows => exact absurd follows notBehind

end

end SourcePreview.JsonText
