import SourcePreview.Proofs.Text.Digits
import SourcePreview.Proofs.Yaml.Spacing
import SourcePreview.Yaml.Scalar.Quoted
import Mathlib.Data.List.Basic

/-!
# Reading printed quoted scalars back

Between quotes a text is printed word by word, with its spaces, and with an indentation after its
line breaks.  Each character of a word is written in a form that stands for it.  So the text is
read back word by word up to the closing quote.
-/

namespace SourcePreview.Yaml

namespace Quoted

/-- Whether some characters between quotes stand for one character. -/
structure Writes (quote : Char) (form : List Char) (character : Char) : Prop where
  notEmpty : form ≠ []
  reads : ∀ rounds read cursor more column,
    Cursor.StandsAt cursor (form ++ more) column →
      readWord quote (rounds + 1) read cursor =
        readWord quote rounds (character :: read) (cursor.skip form.length)

/-- Whether a word between quotes ends in front of some characters. -/
def EndsWord (quote : Char) (rest : List Char) : Prop :=
  ∀ rounds read cursor column,
    Cursor.StandsAt cursor rest column →
      readWord quote (rounds + 1) read cursor = some (read, Gap.none, cursor)

section Word

variable {quote character : Char} {rest : List Char}

theorem endsWord_of_isGap (isGap : isGap character = true) :
    EndsWord quote (character :: rest) := by
  intro rounds read cursor column stands
  rw [readWord, stands.rest]
  exact if_pos isGap

/-- The closing quote ends a word. -/
theorem endsWord_quote
    (noGap : isGap quote = false) (single : quote = '\'' → rest.head? ≠ some '\'') :
    EndsWord quote (quote :: rest) := by
  intro rounds read cursor column stands
  rw [readWord, stands.rest]
  dsimp only
  rw [if_neg (ne_true_of_eq_false noGap), if_pos rfl,
    if_neg fun both => single both.1 both.2]

/-- A character that is not special stands for itself. -/
theorem writes_singleton
    (noGap : isGap character = false) (noQuote : character ≠ quote)
    (noBackslash : quote = '"' → character ≠ '\\') :
    Writes quote [character] character := by
  refine ⟨List.cons_ne_nil _ _, ?_⟩
  intro rounds read cursor more column stands
  rw [readWord, stands.rest, List.singleton_append]
  dsimp only
  rw [if_neg (ne_true_of_eq_false noGap), if_neg noQuote,
    if_neg fun both => noBackslash both.1 both.2]
  rfl

/-- Two single quotes stand for one. -/
theorem writes_quotes : Writes '\'' ['\'', '\''] '\'' := by
  refine ⟨List.cons_ne_nil _ _, ?_⟩
  intro rounds read cursor more column stands
  rw [readWord, stands.rest]
  rfl

/-- An escape stands for its character. -/
theorem writes_escape
    {code : List Char} (noBreak : ∀ first ∈ code.head?, isBreak first = false)
    (notEmpty : code ≠ [])
    (escapes : ∀ more, escape? (code ++ more) = some (character, code.length)) :
    Writes '"' ('\\' :: code) character := by
  refine ⟨List.cons_ne_nil _ _, ?_⟩
  intro rounds read cursor more column stands
  have noLineBreak : (cursor.skip 1).lineBreak? = none := by
    apply stands.skip_one.lineBreak?_eq_none
    intro first member
    exact noBreak first ((List.head?_append_of_ne_nil code notEmpty).symm.trans member)
  rw [readWord, stands.rest, List.cons_append]
  dsimp only
  rw [if_neg (by decide), if_neg (by decide), if_pos ⟨rfl, rfl⟩, noLineBreak, escapes]
  rfl

/-- A word is read up to its end. -/
theorem readWord_of_writes
    {written : Char → List Char} {word : List Char} {rounds column : Nat} {cursor : Cursor}
    (writes : ∀ character ∈ word, Writes quote (written character) character)
    (ends : EndsWord quote rest) (stands : cursor.StandsAt (word.flatMap written ++ rest) column)
    (enough : word.length < rounds) (read : List Char) :
    readWord quote rounds read cursor =
      some (word.reverse ++ read, Gap.none, cursor.skip (word.flatMap written).length) := by
  induction word generalizing rounds column cursor read with
  | nil =>
      obtain ⟨rounds, rfl⟩ := Nat.exists_eq_add_one_of_ne_zero (Nat.ne_of_gt enough)
      exact ends rounds read cursor column stands
  | cons first word ih =>
      rw [List.forall_mem_cons] at writes
      obtain ⟨rounds, rfl⟩ :=
        Nat.exists_eq_add_one_of_ne_zero (Nat.ne_of_gt (Nat.zero_lt_of_lt enough))
      rw [List.flatMap_cons, List.append_assoc] at stands
      rw [writes.1.reads rounds read cursor _ column stands,
        ih writes.2 (stands.skip _) (Nat.lt_of_succ_lt_succ enough), Cursor.skip_skip,
        List.flatMap_cons, List.length_append, List.reverse_cons, List.append_assoc]
      rfl

end Word

/-- Whether some characters between quotes stand for a text: its words, the spaces between them,
and its line breaks with an indentation after them. -/
inductive IsForm (quote : Char) (written : Char → List Char) : (text form : List Char) → Prop where
  | word {word : List Char}
    (writes : ∀ character ∈ word, Writes quote (written character) character) :
    IsForm quote written word (word.flatMap written)
  | spaces {word text form : List Char} (count : Nat)
    (writes : ∀ character ∈ word, Writes quote (written character) character)
    (endsGap : EndsGap form) (rest : IsForm quote written text form) :
    IsForm quote written (word ++ (Value.spaces (count + 1) ++ text))
      (word.flatMap written ++ (Value.spaces (count + 1) ++ form))
  | breaks {word text form : List Char} {first : Char} {breaks : List Char} (indentation : Nat)
    (writes : ∀ character ∈ word, Writes quote (written character) character)
    (printed : ∀ character ∈ first :: breaks, IsPrintedBreak character)
    (noLineFeed : first ≠ '\n') (endsGap : EndsGap form) (rest : IsForm quote written text form) :
    IsForm quote written (word ++ (first :: breaks ++ text))
      (word.flatMap written ++ (first :: breaks ++ (Value.spaces (indentation + 1) ++ form)))

section Reading

variable
    {quote : Char} {written : Char → List Char} {word text form more : List Char} {column : Nat}
    {cursor : Cursor}

theorem length_le_length_flatMap
    (writes : ∀ character ∈ word, Writes quote (written character) character) :
    word.length ≤ (word.flatMap written).length := by
  induction word with
  | nil => exact Nat.le_refl 0
  | cons first word ih =>
      rw [List.forall_mem_cons] at writes
      have positive := List.length_pos_of_ne_nil writes.1.notEmpty
      have shorter := ih writes.2
      rw [List.flatMap_cons, List.length_append, List.length_cons]
      omega

/-- What reading a word leads to depends on the white space after it. -/
theorem readWords_of_writes
    {rest : List Char}
    (writes : ∀ character ∈ word, Writes quote (written character) character)
    (ends : EndsWord quote rest) (notEmpty : rest ≠ [])
    (stands : cursor.StandsAt (word.flatMap written ++ rest) column) (inside : 0 < column)
    (rounds : Nat) (read : List Char) :
    readWords quote (rounds + 1) read cursor =
      let next := cursor.skip (word.flatMap written).length
      if next.isAt quote then some (word.reverse ++ read, next.skip 1)
      else
        match Gap.none.read? 0 next with
        | some (gap, stop) =>
          readWords quote rounds (gap.reversedText ++ (word.reverse ++ read)) stop
        | none => none := by
  have notMark : cursor.isAtDocumentMark = false := stands.isAtDocumentMark_eq_false inside
  have enough : word.length < cursor.rest.length + 1 := by
    have shorter := length_le_length_flatMap writes
    rw [stands.rest, List.length_append]
    omega
  have goesOn : cursor.rest.isEmpty = false := by
    rw [stands.rest, List.isEmpty_eq_false_iff]
    exact List.append_ne_nil_of_right_ne_nil _ notEmpty
  rw [readWords, notMark, goesOn, readWord_of_writes writes ends stands enough]
  rfl

/-- Line breaks that are no line feeds are kept. -/
theorem reversedText_breaks
    {first : Char} (noLineFeed : first ≠ '\n') (breaks : List Char) :
    Gap.reversedText ⟨[], true, some first, breaks.reverse⟩ = (first :: breaks).reverse := by
  rw [Gap.reversedText, if_pos rfl, List.reverse_cons]
  split
  · next same => exact absurd (Option.some.inj same) noLineFeed
  · next same => rw [Option.some.inj same]
  · next same => cases same

theorem IsForm.length_le (isForm : IsForm quote written text form) :
    text.length ≤ form.length := by
  induction isForm with
  | word writes => exact length_le_length_flatMap writes
  | spaces count writes endsGap rest ih =>
      have shorter := length_le_length_flatMap writes
      simp only [List.length_append]
      omega
  | breaks indentation writes printed noLineFeed endsGap rest ih =>
      have shorter := length_le_length_flatMap writes
      simp only [List.length_append]
      omega

/-- What stands for a text is read up to the closing quote. -/
theorem IsForm.readWords
    (isForm : IsForm quote written text form)
    (ends : EndsWord quote (quote :: more)) (noGap : isGap quote = false)
    (stands : cursor.StandsAt (form ++ quote :: more) column) (inside : 0 < column)
    {rounds : Nat} (enough : text.length < rounds) (read : List Char) :
    ∃ stop endColumn,
      Quoted.readWords quote rounds read cursor = some (text.reverse ++ read, stop) ∧
        stop.StandsAt more endColumn := by
  induction isForm generalizing column cursor rounds read with
  | word writes =>
      obtain ⟨rounds, rfl⟩ :=
        Nat.exists_eq_add_one_of_ne_zero (Nat.ne_of_gt (Nat.zero_lt_of_lt enough))
      have atQuote := stands.skip _
      refine ⟨_, _, ?_, atQuote.skip_one⟩
      rw [readWords_of_writes writes ends (List.cons_ne_nil _ _) stands inside]
      dsimp only
      rw [if_pos (by rw [Cursor.isAt, atQuote.rest]; simp)]
  | @spaces word text form count writes endsGap rest ih =>
      obtain ⟨rounds, rfl⟩ :=
        Nat.exists_eq_add_one_of_ne_zero (Nat.ne_of_gt (Nat.zero_lt_of_lt enough))
      rw [List.append_assoc, List.append_assoc] at stands
      have atGap := stands.skip _
      have notQuote : ' ' ≠ quote := by
        rintro rfl
        cases noGap
      obtain ⟨next, reads, isNext⟩ := atGap.read?_spaces 0 (endsGap.append_cons noGap more)
      have shorter : text.length < rounds := by
        rw [List.length_append, List.length_append, Value.length_spaces] at enough
        omega
      obtain ⟨stop, endColumn, readsRest, stops⟩ :=
        ih isNext (by omega) shorter (Value.spaces (count + 1) ++ (word.reverse ++ read))
      refine ⟨stop, endColumn, ?_, stops⟩
      rw [readWords_of_writes writes (endsWord_of_isGap rfl) (List.cons_ne_nil _ _) stands inside]
      dsimp only
      rw [atGap.isAt_eq_false notQuote, if_neg Bool.false_ne_true, reads]
      simp [Gap.reversedText, readsRest]
  | @breaks word text form first breaks indentation writes printed noLineFeed endsGap rest ih =>
      obtain ⟨rounds, rfl⟩ :=
        Nat.exists_eq_add_one_of_ne_zero (Nat.ne_of_gt (Nat.zero_lt_of_lt enough))
      rw [List.append_assoc, List.append_assoc, List.append_assoc] at stands
      have atGap := stands.skip _
      have isGap : isGap first = true := by
        rw [Yaml.isGap, (printed first List.mem_cons_self).1, Bool.or_true]
      have notQuote : first ≠ quote := by
        rintro rfl
        rw [noGap] at isGap
        cases isGap
      obtain ⟨next, reads, isNext⟩ :=
        atGap.read?_breaks 0 printed (endsGap.append_cons noGap more)
      have shorter : text.length < rounds := by
        rw [List.length_append, List.length_append, List.length_cons] at enough
        omega
      obtain ⟨stop, endColumn, readsRest, stops⟩ :=
        ih isNext (by omega) shorter ((first :: breaks).reverse ++ (word.reverse ++ read))
      refine ⟨stop, endColumn, ?_, stops⟩
      rw [readWords_of_writes writes (endsWord_of_isGap isGap) (List.cons_ne_nil _ _) stands inside]
      dsimp only
      rw [atGap.isAt_eq_false notQuote, if_neg Bool.false_ne_true, reads]
      dsimp only
      rw [reversedText_breaks noLineFeed, readsRest]
      simp

/-- What stands for a text between quotes is read back as that text. -/
theorem IsForm.read?
    (isForm : IsForm quote written text form)
    (ends : EndsWord quote (quote :: more)) (noGap : isGap quote = false)
    (stands : cursor.StandsAt (quote :: form ++ quote :: more) column) :
    ∃ stop endColumn,
      Quoted.read? quote cursor = some (String.ofList text, stop) ∧
        stop.StandsAt more endColumn := by
  have short := isForm.length_le
  have enough : text.length < cursor.rest.length + 1 := by
    rw [stands.rest, List.length_append, List.length_cons]
    omega
  obtain ⟨stop, endColumn, reads, stops⟩ :=
    isForm.readWords ends noGap stands.skip_one (Nat.succ_pos column) enough []
  refine ⟨stop, endColumn, ?_, stops⟩
  rw [Quoted.read?, reads]
  simp

end Reading

end Quoted

namespace Value

/-! ## Single quotes -/

/-- A character as it is written between single quotes. -/
def doubled (character : Char) : List Char :=
  if character = '\'' then ['\'', '\''] else [character]

theorem writes_doubled {character : Char} (noGap : isGap character = false) :
    Quoted.Writes '\'' (doubled character) character := by
  rw [doubled]
  split
  · next isQuote =>
      rw [isQuote]
      exact Quoted.writes_quotes
  · next noQuote => exact Quoted.writes_singleton noGap noQuote nofun

theorem flatMap_doubled_spaces (count : Nat) : (spaces count).flatMap doubled = spaces count := by
  induction count with
  | zero => rfl
  | succ count ih => rw [spaces_succ, List.flatMap_cons, ih]; rfl

section

variable (indentation : Nat)

/-- Up to the next line break, characters are written one after the other. -/
theorem singleQuotedFrom_append
    {front : List Char} (noBreak : ∀ character ∈ front, isBreak character = false)
    (rest : List Char) :
    singleQuotedFrom indentation false (front ++ rest) =
      front.flatMap doubled ++ singleQuotedFrom indentation false rest := by
  induction front with
  | nil => rfl
  | cons first front ih =>
      rw [List.forall_mem_cons] at noBreak
      rw [List.cons_append, singleQuotedFrom, if_neg (ne_true_of_eq_false noBreak.1),
        if_neg Bool.false_ne_true, List.nil_append, ih noBreak.2, List.flatMap_cons,
        List.append_assoc]
      rfl

/-- Line breaks are written one after the other, and what follows them is indented. -/
theorem singleQuotedFrom_breaks
    {breaks : List Char} (areBreaks : ∀ character ∈ breaks, isBreak character = true)
    {rest : List Char} (noBreak : ∀ character ∈ rest.head?, isBreak character = false) :
    singleQuotedFrom indentation true (breaks ++ rest) =
      breaks ++ (spaces indentation ++ singleQuotedFrom indentation false rest) := by
  induction breaks with
  | nil =>
      cases rest with
      | nil => simp [singleQuotedFrom]
      | cons first rest =>
          have noBreak := noBreak first rfl
          simp [singleQuotedFrom, noBreak]
  | cons first breaks ih =>
      rw [List.forall_mem_cons] at areBreaks
      rw [List.cons_append, singleQuotedFrom, if_pos areBreaks.1, ih areBreaks.2]
      rfl

/-- Where no white space comes next in a text, none comes next in what is written for it. -/
theorem endsGap_singleQuotedFrom {text : List Char} (endsGap : EndsGap text) :
    EndsGap (singleQuotedFrom indentation false text) := by
  cases text with
  | nil => exact endsGap_nil
  | cons first text =>
      have noGap := endsGap_cons_iff.mp endsGap
      have noBreak := (isGap_eq_false_iff.mp noGap).2
      rw [singleQuotedFrom, if_neg (ne_true_of_eq_false noBreak),
        if_neg Bool.false_ne_true, List.nil_append]
      split
      · exact endsGap_cons_iff.mpr rfl
      · exact endsGap_cons_iff.mpr noGap

end

/-- Whether a text can be read back from single quotes. -/
structure IsSingleQuotable (text : List Char) : Prop where
  printable : ArePrintable text
  noLineFeed : '\n' ∉ text
  noBreakAfterSpace : hasPair (· == ' ') isBreak text = false
  noSpaceAfterBreak : hasPair isBreak (· == ' ') text = false

theorem isSingleQuotable_of_allowsSingleQuotes
    {text : List Char} (allowed : allowsSingleQuotes text = true) (noLineFeed : '\n' ∉ text) :
    IsSingleQuotable text := by
  rw [allowsSingleQuotes, Bool.and_eq_true, Bool.not_eq_true', Bool.not_eq_true'] at allowed
  obtain ⟨noEscapes, noSpaceAfterBreak⟩ := allowed
  have noPair := noEscapes
  rw [needsEscapes, Bool.or_eq_false_iff] at noPair
  exact ⟨arePrintable_of_not_needsEscapes noEscapes, noLineFeed, noPair.2, noSpaceAfterBreak⟩

theorem IsSingleQuotable.of_append_left
    {front rest : List Char} (quotable : IsSingleQuotable (front ++ rest)) :
    IsSingleQuotable front where
  printable character member := quotable.printable character (List.mem_append_left rest member)
  noLineFeed member := quotable.noLineFeed (List.mem_append_left rest member)
  noBreakAfterSpace := hasPair_of_append_left quotable.noBreakAfterSpace
  noSpaceAfterBreak := hasPair_of_append_left quotable.noSpaceAfterBreak

theorem IsSingleQuotable.of_append_right
    {front rest : List Char} (quotable : IsSingleQuotable (front ++ rest)) :
    IsSingleQuotable rest where
  printable character member := quotable.printable character (List.mem_append_right front member)
  noLineFeed member := quotable.noLineFeed (List.mem_append_right front member)
  noBreakAfterSpace := hasPair_of_append quotable.noBreakAfterSpace
  noSpaceAfterBreak := hasPair_of_append quotable.noSpaceAfterBreak

/-- White space in such a text is spaces or line breaks, never both. -/
theorem IsSingleQuotable.eq_spaces_or_isBreak
    {gap : List Char} (quotable : IsSingleQuotable gap)
    (isGap : ∀ character ∈ gap, isGap character = true) :
    gap = spaces gap.length ∨ ∀ character ∈ gap, IsPrintedBreak character := by
  induction gap with
  | nil => exact Or.inl rfl
  | cons first gap ih =>
      rw [List.forall_mem_cons] at isGap
      have split : IsSingleQuotable ([first] ++ gap) := quotable
      have rest := ih split.of_append_right isGap.2
      have printable := quotable.printable first List.mem_cons_self
      cases isBreak : isBreak first with
      | true =>
          right
          rw [List.forall_mem_cons]
          refine ⟨⟨isBreak, printable⟩, ?_⟩
          rcases rest with isSpaces | areBreaks
          · cases gap with
            | nil => exact fun character member => nomatch member
            | cons second gap =>
                rw [isSpaces] at quotable
                have noSpace :=
                  not_isSecond_of_not_hasPair quotable.noSpaceAfterBreak isBreak
                cases noSpace
          · exact areBreaks
      | false =>
          left
          have isGapHere := isGap.1
          rw [Yaml.isGap, isBreak, Bool.or_false] at isGapHere
          obtain rfl := eq_space_of_isBlank isGapHere printable
          rcases rest with isSpaces | areBreaks
          · rw [List.length_cons, spaces_succ, ← isSpaces]
          · cases gap with
            | nil => rfl
            | cons second gap =>
                have noBreak :=
                  not_isSecond_of_not_hasPair quotable.noBreakAfterSpace rfl
                rw [(areBreaks second List.mem_cons_self).1] at noBreak
                cases noBreak

/-- What is written between single quotes stands for the text. -/
theorem isForm_singleQuotedFrom
    (indentation : Nat) {text : List Char} (quotable : IsSingleQuotable text) :
    Quoted.IsForm '\'' doubled text (singleQuotedFrom (indentation + 1) false text) := by
  induction length : text.length using Nat.strongRecOn generalizing text with
  | ind length_ ih =>
      obtain ⟨word, gap, rest, rfl, noGap, isGap, endsGap, noRest⟩ := exists_word Yaml.isGap text
      have writes : ∀ character ∈ word, Quoted.Writes '\'' (doubled character) character :=
        fun character member => writes_doubled (noGap character member)
      have noBreak : ∀ character ∈ word, isBreak character = false :=
        fun character member => (isGap_eq_false_iff.mp (noGap character member)).2
      rw [singleQuotedFrom_append _ noBreak]
      cases gap with
      | nil =>
          rw [noRest rfl, List.append_nil, List.append_nil, singleQuotedFrom,
            if_neg Bool.false_ne_true, List.append_nil]
          exact Quoted.IsForm.word writes
      | cons first gap =>
          have quotableRest := quotable.of_append_right.of_append_right
          have form := ih rest.length (by simp at length; omega) quotableRest rfl
          have endsForm := endsGap_singleQuotedFrom (indentation + 1) endsGap
          have quotableGap := quotable.of_append_right.of_append_left
          rcases quotableGap.eq_spaces_or_isBreak isGap with isSpaces | areBreaks
          · have noBreak : ∀ character ∈ first :: gap, isBreak character = false := by
              rw [isSpaces]
              exact fun character member => by rw [List.eq_of_mem_replicate member]; rfl
            rw [singleQuotedFrom_append _ noBreak, isSpaces, flatMap_doubled_spaces]
            exact Quoted.IsForm.spaces gap.length writes endsForm form
          · have noLineFeed : first ≠ '\n' := by
              rintro rfl
              exact quotable.noLineFeed (by simp)
            rw [List.forall_mem_cons] at areBreaks
            rw [List.cons_append, singleQuotedFrom, if_pos areBreaks.1.1,
              singleQuotedFrom_breaks _ (fun character member => (areBreaks.2 character member).1)
                fun character member => (isGap_eq_false_iff.mp (endsGap character member)).2]
            exact
              Quoted.IsForm.breaks indentation writes (List.forall_mem_cons.mpr areBreaks)
                noLineFeed endsForm form

/-- A text in single quotes is read back. -/
theorem read?_singleQuoted
    (indentation : Nat) {text more : List Char} {cursor : Cursor} {column : Nat}
    (quotable : IsSingleQuotable text) (ends : more.head? ≠ some '\'')
    (stands : cursor.StandsAt (singleQuoted (indentation + 1) text ++ more) column) :
    ∃ stop endColumn,
      Quoted.read? '\'' cursor = some (String.ofList text, stop) ∧
        stop.StandsAt more endColumn := by
  rw [singleQuoted, List.append_assoc] at stands
  exact
    (isForm_singleQuotedFrom indentation quotable).read?
      (Quoted.endsWord_quote rfl fun _ => ends) rfl stands

/-! ## Double quotes -/

/-- A digit in base sixteen is read back from upper case. -/
theorem hexValue?_toUpper :
    ∀ digit < 16,
      digit.digitChar.toUpper.toNat < 0x80 ∧
        Text.hexValue? (UInt8.ofNat digit.digitChar.toUpper.toNat) = some digit := by
  decide

theorem hexNumber?_hexPadded (count number : Nat) :
    Quoted.hexNumber? (hexPadded count number) = some number := by
  have large : 1 < 16 := by decide
  refine
    Eq.trans (Text.foldlM_zeros_append Char.toUpper _ ?_ large _ _)
      (Text.foldlM_toDigits Char.toUpper _ ?_ large number)
  all_goals
    intro number digit small
    obtain ⟨ascii, value⟩ := hexValue?_toUpper digit small
    rw [if_pos ascii, value]
    rfl

theorem length_hexPadded
    {count number : Nat} (short : (Nat.toDigits 16 number).length ≤ count) :
    (hexPadded count number).length = count := by
  rw [hexPadded, List.length_append, List.length_replicate, List.length_map]
  omega

/-- The code point of a character is read back from its digits. -/
theorem codePoint?_hexPadded
    {count : Nat} (character : Char)
    (short : (Nat.toDigits 16 character.toNat).length ≤ count) (more : List Char) :
    Quoted.codePoint? count (hexPadded count character.toNat ++ more) = some character := by
  have length := length_hexPadded short
  have valid : character.toNat.isValidChar := character.valid
  simp [Quoted.codePoint?, List.take_left' length, length, hexNumber?_hexPadded, valid]

/-- A character that needs an escape in base sixteen has one. -/
theorem escape?_hexPadded
    {count : Nat} {mark character : Char}
    (isMark : mark = 'x' ∧ count = 2 ∨ mark = 'u' ∧ count = 4)
    (short : (Nat.toDigits 16 character.toNat).length ≤ count) (more : List Char) :
    Quoted.escape? (mark :: hexPadded count character.toNat ++ more) =
      some (character, (mark :: hexPadded count character.toNat).length) := by
  rcases isMark with ⟨rfl, rfl⟩ | ⟨rfl, rfl⟩
  all_goals
    rw [List.cons_append, Quoted.escape?, codePoint?_hexPadded character short, List.length_cons,
      length_hexPadded short]
    rfl

/-- A character between double quotes is written as it is, or as an escape that stands for it. -/
theorem escapeChar_cases (character : Char) :
    (escapeChar character = [character] ∧ isPrintable character = true ∧
        isBreak character = false ∧ character ≠ '"' ∧ character ≠ '\\') ∨
      ∃ code,
        escapeChar character = '\\' :: code ∧ code ≠ [] ∧
          (∀ first ∈ code.head?, isBreak first = false) ∧
          ∀ more, Quoted.escape? (code ++ more) = some (character, code.length) := by
  fun_cases escapeChar character
  case case15 notLineFeed _ _ notReturn _ notQuote notBackslash notNextLine notLine notParagraph
      isPrintable =>
    have noBreak : isBreak character = false := by
      rw [← Bool.not_eq_true, isBreak_iff]
      rintro (rfl | rfl | rfl | rfl | rfl)
      all_goals contradiction
    exact Or.inl ⟨rfl, isPrintable, noBreak, notQuote, notBackslash⟩
  case case16 small =>
    have short : (Nat.toDigits 16 character.toNat).length ≤ 2 :=
      (Nat.length_toDigits_le_iff (by decide) (by decide)).mpr (Nat.lt_succ_of_le small)
    exact
      Or.inr
        ⟨_, rfl, List.cons_ne_nil _ _, fun first isFirst => by cases isFirst; rfl,
          escape?_hexPadded (Or.inl ⟨rfl, rfl⟩) short⟩
  case case17 notPrintable _ =>
    have below : character.toNat < 0x10000 := by
      simp only [isPrintable, Bool.or_eq_true, decide_eq_true_eq] at notPrintable
      omega
    have short : (Nat.toDigits 16 character.toNat).length ≤ 4 :=
      (Nat.length_toDigits_le_iff (by decide) (by decide)).mpr below
    exact
      Or.inr
        ⟨_, rfl, List.cons_ne_nil _ _, fun first isFirst => by cases isFirst; rfl,
          escape?_hexPadded (Or.inr ⟨rfl, rfl⟩) short⟩
  all_goals
    exact
      Or.inr
        ⟨_, rfl, List.cons_ne_nil _ _, fun first isFirst => by cases isFirst; rfl, fun _ => rfl⟩

theorem writes_escapeChar {character : Char} (noSpace : character ≠ ' ') :
    Quoted.Writes '"' (escapeChar character) character := by
  rcases escapeChar_cases character with
    ⟨isWritten, isPrintable, noBreak, noQuote, noBackslash⟩ |
    ⟨code, isWritten, notEmpty, noBreak, escapes⟩
  · rw [isWritten]
    exact
      Quoted.writes_singleton (isGap_eq_false_of_isPrintable isPrintable noSpace noBreak) noQuote
        fun _ => noBackslash
  · rw [isWritten]
    exact Quoted.writes_escape noBreak notEmpty escapes

theorem endsGap_flatMap_escapeChar
    {text : List Char} (noSpace : ∀ character ∈ text.head?, character ≠ ' ') :
    EndsGap (text.flatMap escapeChar) := by
  cases text with
  | nil => exact endsGap_nil
  | cons first text =>
      rw [List.flatMap_cons]
      rcases escapeChar_cases first with
        ⟨isWritten, isPrintable, noBreak, _⟩ | ⟨code, isWritten, _⟩
      · rw [isWritten]
        exact
          endsGap_cons_iff.mpr
            (isGap_eq_false_of_isPrintable isPrintable (noSpace first rfl) noBreak)
      · rw [isWritten]
        exact endsGap_cons_iff.mpr rfl

theorem flatMap_escapeChar_spaces (count : Nat) :
    (spaces count).flatMap escapeChar = spaces count := by
  induction count with
  | zero => rfl
  | succ count ih => rw [spaces_succ, List.flatMap_cons, ih]; rfl

/-- What is written between double quotes stands for the text. -/
theorem isForm_flatMap_escapeChar (text : List Char) :
    Quoted.IsForm '"' escapeChar text (text.flatMap escapeChar) := by
  induction length : text.length using Nat.strongRecOn generalizing text with
  | ind length_ ih =>
      obtain ⟨word, gap, rest, rfl, noSpace, areSpaces, startsRest, noRest⟩ :=
        exists_word (· == ' ') text
      have writes : ∀ character ∈ word, Quoted.Writes '"' (escapeChar character) character :=
        fun character member =>
          writes_escapeChar (beq_eq_false_iff_ne.mp (noSpace character member))
      cases gap with
      | nil =>
          rw [noRest rfl, List.append_nil, List.append_nil]
          exact Quoted.IsForm.word writes
      | cons first gap =>
          have isSpaces : first :: gap = spaces (gap.length + 1) :=
            List.eq_replicate_iff.mpr
              ⟨rfl, fun character member => eq_of_beq (areSpaces character member)⟩
          have form := ih rest.length (by simp at length; omega) rest rfl
          have endsForm : EndsGap (rest.flatMap escapeChar) :=
            endsGap_flatMap_escapeChar fun character member =>
              beq_eq_false_iff_ne.mp (startsRest character member)
          rw [isSpaces, List.flatMap_append, List.flatMap_append, flatMap_escapeChar_spaces]
          exact Quoted.IsForm.spaces gap.length writes endsForm form

/-- A text in double quotes is read back. -/
theorem read?_doubleQuoted
    {text more : List Char} {cursor : Cursor} {column : Nat}
    (stands : cursor.StandsAt (doubleQuoted text ++ more) column) :
    ∃ stop endColumn,
      Quoted.read? '"' cursor = some (String.ofList text, stop) ∧ stop.StandsAt more endColumn := by
  rw [doubleQuoted, List.append_assoc] at stands
  exact (isForm_flatMap_escapeChar text).read? (Quoted.endsWord_quote rfl nofun) rfl stands

end Value

end SourcePreview.Yaml
