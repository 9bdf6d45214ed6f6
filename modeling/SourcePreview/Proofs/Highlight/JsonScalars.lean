import SourcePreview.Highlight.Fragments
import SourcePreview.Proofs.Json.Lexemes
import SourcePreview.Proofs.Pattern.Preference
import SourcePreview.Proofs.Pattern.Scanning

/-!
# Numbers and literal names of JSON texts

The pattern for numbers takes a number of a JSON text as a whole, and the pattern for words takes
a literal name.  Both need to know what stands around the token: in front of it no word character,
and behind it white space, a closing character or the end.
-/

namespace SourcePreview.JsonText

open Pattern

/-! ### Characters -/

theorem lt_of_isDigit {character : Char} (isDigit : character.isDigit = true) :
    character.toNat < 128 := by
  simp only [Char.isDigit, Bool.and_eq_true, decide_eq_true_eq, ge_iff_le,
    UInt32.le_iff_toNat_le] at isDigit
  exact Nat.lt_of_le_of_lt isDigit.2 (by decide)

theorem isDecimalDigit_of_isDigit {character : Char} (isDigit : character.isDigit = true) :
    Text.isDecimalDigit character = true := by
  rwa [Text.isDecimalDigit, if_pos (lt_of_isDigit isDigit)]

theorem isWordChar_of_isDigit {character : Char} (isDigit : character.isDigit = true) :
    Text.isWordChar character = true := by
  rw [Text.isWordChar, if_pos (lt_of_isDigit isDigit), Char.isAlphanum, isDigit, Bool.or_true,
    Bool.true_or]

/-- Whether what comes may stand behind a scalar. -/
def EndsScalar (coming : List Char) : Prop :=
  ∀ character ∈ coming.head?, character ∈ spaces ++ closers

variable {passed spelling ahead : List Char} {tokenClass : TokenClass}

/-- A test that refuses all characters that may stand behind a scalar. -/
theorem EndsScalar.refuses
    (ends : EndsScalar ahead) {test : CharTest}
    (refused : ∀ character ∈ spaces ++ closers, test character = false) :
    CharTest.Refuses test ahead :=
  fun character first => refused character (ends character first)

/-- In front of a scalar the word edge holds if no word character stands there. -/
theorem holds_edge_before
    (edge : ∀ character ∈ passed.getLast?, Text.isWordChar character = false)
    {first : Char} (isWord : Text.isWordChar first = true) (rest : List Char) :
    Anchor.wordEdge.holds (Cursor.between passed (first :: rest)) = true := by
  rw [Cursor.holds_wordEdge]
  cases last : passed.getLast? with
  | none => simp [isWord]
  | some character => simp [isWord, edge character last]

/-- Behind a scalar that ends in a word character the word edge holds. -/
theorem holds_edge_behind
    {front : List Char} {last : Char} (parts : spelling = front ++ [last])
    (isWord : Text.isWordChar last = true) (ends : EndsScalar ahead) (passed : List Char) :
    Anchor.wordEdge.holds (Cursor.between (passed ++ spelling) ahead) = true := by
  have noWord := ends.refuses (by decide : ∀ character ∈ _, Text.isWordChar character = false)
  rw [Cursor.holds_wordEdge, parts, ← List.append_assoc, List.getLast?_concat]
  cases first : ahead.head? with
  | none => simp [isWord]
  | some character => simp [isWord, noWord character first]

/-! ### Numbers -/

/-- A test for listed characters that are no digits refuses the first of any digits. -/
theorem IsDigits.refuses_among
    {digits : List Char} (isDigits : IsDigits digits) {listed : String}
    (noDigit : ∀ character ∈ listed.toList, character.isDigit = false) :
    CharTest.Refuses (.among listed) (digits ++ ahead) := by
  obtain ⟨some, allDigits⟩ := isDigits
  obtain ⟨first, others, rfl⟩ := List.exists_cons_of_ne_nil some
  have isDigit := allDigits first List.mem_cons_self
  refine CharTest.refuses_cons ?_ _
  rw [← Bool.not_eq_true, CharTest.among_iff]
  intro member
  rw [noDigit first member] at isDigit
  cases isDigit

/-- Digits are taken up to the first character that is none. -/
theorem prefers_digits
    {digits : List Char} (isDigits : IsDigits digits)
    (stops : CharTest.Refuses .digit ahead) :
    Prefers (oneOrMore .digit) passed digits ahead := by
  obtain ⟨some, allDigits⟩ := isDigits
  obtain ⟨first, others, rfl⟩ := List.exists_cons_of_ne_nil some
  obtain ⟨isDigit, othersAreDigits⟩ := List.forall_mem_cons.mp allDigits
  refine Prefers.next (isDecimalDigit_of_isDigit isDigit) (prefers_many ?_ stops)
  exact fun digit member => isDecimalDigit_of_isDigit (othersAreDigits digit member)

/-- A fraction is taken as a whole. -/
theorem prefers_fraction
    {fraction : List Char} (isFraction : IsFraction fraction)
    (stops : CharTest.Refuses .digit ahead)
    (noPoint : CharTest.Refuses (.only '.') ahead) :
    Prefers (optional (.next (.only '.') (oneOrMore .digit))) passed fraction ahead := by
  cases isFraction with
  | absent => exact prefers_optional_nil (fails_next noPoint)
  | present isDigits => exact (Prefers.next rfl (prefers_digits isDigits stops)).alt_left _

theorem exponent_eq :
    Fragment.exponent =
      .next (.among "eE") (.seq (optional (.char (.among "+-"))) (oneOrMore .digit)) := rfl

/-- An exponent is taken as a whole. -/
theorem prefers_exponent
    {exponent : List Char} (isExponent : IsExponent exponent)
    (stops : CharTest.Refuses .digit ahead)
    (noLetter : CharTest.Refuses (.among "eE") ahead) :
    Prefers (optional Fragment.exponent) passed exponent ahead := by
  cases isExponent with
  | absent => exact prefers_optional_nil (fails_next noLetter)
  | @present letter sign digits marked signed isDigits =>
      rw [exponent_eq]
      have isLetter : ∀ letter ∈ ['e', 'E'], CharTest.among "eE" letter = true := by decide
      refine Prefers.alt_left (Prefers.next (isLetter letter marked) (Prefers.seq ?_ ?_)) _
      · simp only [List.mem_cons, List.not_mem_nil, or_false] at signed
        rcases signed with rfl | rfl | rfl
        · exact prefers_optional_nil (fails_next (isDigits.refuses_among (by decide)))
        · exact Prefers.alt_left (Prefers.next (by decide) prefers_empty) _
        · exact Prefers.alt_left (Prefers.next (by decide) prefers_empty) _
      · exact prefers_digits isDigits stops

theorem IsFraction.refuses
    {fraction : List Char} (isFraction : IsFraction fraction)
    {test : CharTest} (refused : test '.' = false) :
    CharTest.Refuses test fraction := by
  cases isFraction with
  | absent => simp [CharTest.Refuses]
  | present => exact CharTest.refuses_cons refused _

theorem IsExponent.refuses
    {exponent : List Char} (isExponent : IsExponent exponent)
    {test : CharTest} (refused : ∀ letter ∈ ['e', 'E'], test letter = false) :
    CharTest.Refuses test exponent := by
  cases isExponent with
  | absent => simp [CharTest.Refuses]
  | present marked => exact CharTest.refuses_cons (refused _ marked) _

theorem signedNumber_eq :
    Fragment.signedNumber =
      .seq (optional (.char (.only '-')))
        (.seq wordEdge
          (.next .digit
            (.seq (.many .digit)
              (.seq (optional (.next (.only '.') (oneOrMore .digit)))
                (.seq (optional Fragment.exponent) wordEdge))))) := rfl

/-- A number is taken as a whole. -/
theorem prefers_signedNumber
    (isNumber : IsNumber spelling)
    (edge : ∀ character ∈ passed.getLast?, Text.isWordChar character = false)
    (ends : EndsScalar ahead) :
    Prefers Fragment.signedNumber passed spelling ahead := by
  obtain ⟨front, last, parts, lastIsDigit⟩ := isNumber.endsInDigit
  obtain @⟨minus, integer, fraction, exponent, signed, isInteger, isFraction, isExponent⟩ :=
    isNumber
  obtain ⟨first, digits, rfl⟩ := List.exists_cons_of_ne_nil isInteger.ne_nil
  obtain ⟨isDigit, othersAreDigits⟩ := List.forall_mem_cons.mp isInteger.forall_isDigit
  -- From the last part to the first, each is taken in front of the parts behind it.
  have fromExponent :
      Prefers (.seq (optional Fragment.exponent) wordEdge)
        (passed ++ minus ++ [first] ++ digits ++ fraction) exponent ahead := by
    refine Prefers.seq_anchor ?_ ?_
    · exact prefers_exponent isExponent (ends.refuses (by decide)) (ends.refuses (by decide))
    · have behind := holds_edge_behind parts (isWordChar_of_isDigit lastIsDigit) ends passed
      simpa using behind
  have fromFraction :
      Prefers (.seq (optional (.next (.only '.') (oneOrMore .digit)))
          (.seq (optional Fragment.exponent) wordEdge))
        (passed ++ minus ++ [first] ++ digits) (fraction ++ exponent) ahead := by
    refine Prefers.seq (prefers_fraction isFraction ?_ ?_) fromExponent
    · exact (isExponent.refuses (by decide)).append (ends.refuses (by decide))
    · exact (isExponent.refuses (by decide)).append (ends.refuses (by decide))
  have fromDigits :
      Prefers (.seq (.many .digit)
          (.seq (optional (.next (.only '.') (oneOrMore .digit)))
            (.seq (optional Fragment.exponent) wordEdge)))
        (passed ++ minus ++ [first]) (digits ++ (fraction ++ exponent)) ahead := by
    refine Prefers.seq (prefers_many ?_ ?_) fromFraction
    · exact fun digit member => isDecimalDigit_of_isDigit (othersAreDigits digit member)
    · exact
        ((isFraction.refuses (by decide)).append (isExponent.refuses (by decide))).append
          (ends.refuses (by decide))
  rw [signedNumber_eq]
  simp only [List.mem_cons, List.not_mem_nil, or_false] at signed
  refine Prefers.seq ?_
    (Prefers.anchor_seq (holds_edge_before ?_ (isWordChar_of_isDigit isDigit) _)
      (Prefers.next (isDecimalDigit_of_isDigit isDigit) fromDigits))
  · rcases signed with rfl | rfl
    · refine prefers_optional_nil (fails_next (CharTest.refuses_cons ?_ _))
      refine CharTest.only_eq_false ?_
      rintro rfl
      cases isDigit
    · exact Prefers.alt_left (Prefers.next rfl prefers_empty) _
  · rcases signed with rfl | rfl
    · simpa using edge
    · simpa using (by decide : Text.isWordChar '-' = false)

/-- A number starts with a minus sign or a digit. -/
def startsNumber : CharTest :=
  .or (.only '-') .digit

theorem startsBy_numbers (tokenClass : TokenClass) :
    (Rule.whole Fragment.signedNumber tokenClass).StartsBy startsNumber := by
  intro passed coming refused
  have notSign : CharTest.Refuses (.only '-') coming :=
    fun character first => (Bool.or_eq_false_iff.mp (refused character first)).1
  have notDigit : CharTest.Refuses .digit coming :=
    fun character first => (Bool.or_eq_false_iff.mp (refused character first)).2
  have fails : Fails Fragment.signedNumber passed coming := by
    rw [signedNumber_eq]
    exact Fails.optional_seq (fails_next notSign) ((fails_next notDigit).anchor_seq _)
  exact fails _ _

/-! ### Literal names -/

/-- The pattern for the literal names. -/
def literalNames : Pattern :=
  words ["true", "false", "null"]

theorem literalNames_eq :
    literalNames =
      .seq wordEdge
        (.seq (.alt (literal "true") (.alt (literal "false") (literal "null"))) wordEdge) := rfl

/-- A literal name is taken as a whole. -/
theorem prefers_literalNames
    (listed : spelling ∈ literals)
    (edge : ∀ character ∈ passed.getLast?, Text.isWordChar character = false)
    (ends : EndsScalar ahead) :
    Prefers literalNames passed spelling ahead := by
  have refused {first other : Char} {tail : Pattern} {coming : List Char}
      (different : CharTest.only other first = false) :
      Fails (.next (.only other) tail) passed (first :: coming) :=
    fails_next (CharTest.refuses_cons different _)
  have takesName :
      Prefers (.alt (literal "true") (.alt (literal "false") (literal "null"))) passed spelling
        ahead := by
    simp only [literals, List.mem_cons, List.not_mem_nil, or_false] at listed
    rcases listed with rfl | rfl | rfl
    · exact Prefers.alt_right (refused (by decide)) ((prefers_literal "false").alt_left _)
    · exact
        Prefers.alt_right (refused (by decide))
          (Prefers.alt_right (refused (by decide)) (prefers_literal "null"))
    · exact (prefers_literal "true").alt_left _
  obtain ⟨front, last, first, behind, startsSame, endsSame, firstIsWord, lastIsWord⟩ :
      ∃ front last first behind,
        spelling = first :: behind ∧ spelling = front ++ [last] ∧
          Text.isWordChar first = true ∧ Text.isWordChar last = true := by
    simp only [literals, List.mem_cons, List.not_mem_nil, or_false] at listed
    rcases listed with rfl | rfl | rfl
    · exact ⟨['f', 'a', 'l', 's'], 'e', 'f', _, rfl, rfl, by decide, by decide⟩
    · exact ⟨['n', 'u', 'l'], 'l', 'n', _, rfl, rfl, by decide, by decide⟩
    · exact ⟨['t', 'r', 'u'], 'e', 't', _, rfl, rfl, by decide, by decide⟩
  rw [literalNames_eq]
  refine Prefers.anchor_seq ?_ (takesName.seq_anchor ?_)
  · rw [startsSame]
    exact holds_edge_before edge firstIsWord _
  · exact holds_edge_behind endsSame lastIsWord ends passed

/-- A literal name starts with one of three letters. -/
def startsLiteral : CharTest :=
  .among "tfn"

theorem startsBy_literalNames (tokenClass : TokenClass) :
    (Rule.whole literalNames tokenClass).StartsBy startsLiteral := by
  intro passed coming refused
  have notFirst {letter : Char} (listed : letter ∈ ['t', 'f', 'n']) :
      CharTest.Refuses (.only letter) coming := by
    intro character first
    have notListed := refused character first
    rw [← Bool.not_eq_true, startsLiteral, CharTest.among_iff] at notListed
    refine CharTest.only_eq_false ?_
    rintro rfl
    exact notListed listed
  have fails : Fails literalNames passed coming := by
    rw [literalNames_eq]
    refine Fails.anchor_seq (Fails.seq ?_ _) _
    exact
      Fails.alt (fails_next (notFirst (by decide)))
        (Fails.alt (fails_next (notFirst (by decide))) (fails_next (notFirst (by decide))))
  exact fails _ _

end SourcePreview.JsonText
