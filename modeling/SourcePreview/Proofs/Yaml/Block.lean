import SourcePreview.Proofs.Yaml.Spacing
import SourcePreview.Yaml.Scalar.Block
import Mathlib.Data.List.Basic

/-!
# Reading printed literal scalars back

A text with line feeds is printed as a block of indented lines.  Its header gives the indentation
where the first line does not show it, and says what becomes of the line breaks at the end.  So the
lines are read back one after the other, with all the breaks that belong to the text.
-/

namespace SourcePreview.Yaml.Block

/-! ## Headers -/

/-- The sign for what becomes of the line breaks at the end. -/
def Chomping.sign : Chomping → List Char
  | .strip => ['-']
  | .clip => []
  | .keep => ['+']

/-- The header of a printed block is read back. -/
theorem header_sign (chomping : Chomping) (shown : Bool) (rest : List Char) :
    header ((if shown then [] else ['2']) ++ chomping.sign ++ '\n' :: rest) =
      (⟨chomping, if shown then none else some 2⟩, '\n' :: rest) := by
  cases chomping <;> cases shown <;> rfl

theorem readHeader?_sign
    {chomping : Chomping} {shown : Bool} {rest : List Char} {cursor : Cursor} {column : Nat}
    (stands :
      cursor.StandsAt ((if shown then [] else ['2']) ++ chomping.sign ++ '\n' :: rest) column) :
    ∃ next,
      readHeader? cursor = some (⟨chomping, if shown then none else some 2⟩, next) ∧
        next.StandsAt rest 0 := by
  have atBreak := stands.skip _
  have length :
      cursor.rest.length - ('\n' :: rest).length =
        ((if shown then [] else ['2']) ++ chomping.sign).length := by
    rw [stands.rest, List.length_append, Nat.add_sub_cancel]
  obtain ⟨next, breaksHere, isNext⟩ :=
    atBreak.lineBreak?_of_isPrintedBreak (isPrintedBreak_lineFeed '\n' List.mem_cons_self)
  refine ⟨next, ?_, isNext⟩
  rw [readHeader?, stands.rest, header_sign]
  dsimp only
  rw [if_neg (by cases shown <;> decide), ← stands.rest, length,
    atBreak.skipWhile_eq_self (by simp [isBlank]), atBreak.isAt_eq_false (by decide),
    if_neg Bool.false_ne_true, breaksHere]
  rfl

/-! ## Empty lines -/

/-- Whether a line is read from a column on, in front of which there are spaces only. -/
def StartsLine (wanted : Option Nat) (column : Nat) (rest : List Char) : Prop :=
  EndsGap rest ∧ (∀ indentation ∈ wanted, column ≤ indentation) ∨
    wanted = some column ∧ ∀ character ∈ rest.head?, isBreak character = false

section

variable {wanted : Option Nat} {count : Nat} {rest : List Char}

theorem StartsLine.noBreak (starts : StartsLine wanted count rest) :
    ∀ character ∈ rest.head?, isBreak character = false := by
  rcases starts with ⟨endsGap, _⟩ | ⟨_, noBreak⟩
  · exact fun character member => (isGap_eq_false_iff.mp (endsGap character member)).2
  · exact noBreak

/-- The spaces in front of a line are skipped. -/
theorem StartsLine.min_eq (starts : StartsLine wanted count rest) :
    let spaces := ((Value.spaces count ++ rest).takeWhile (· == ' ')).length
    min spaces (wanted.elim spaces fun column => column - 0) = count := by
  have areSpaces : ∀ character ∈ Value.spaces count, (character == ' ') = true :=
    fun character member => beq_iff_eq.mpr (List.eq_of_mem_replicate member)
  rw [List.takeWhile_append_of_pos areSpaces, List.length_append, Value.length_spaces]
  dsimp only
  rcases starts with ⟨endsGap, within⟩ | ⟨rfl, _⟩
  · have none : rest.takeWhile (· == ' ') = [] := by
      cases rest with
      | nil => rfl
      | cons character rest =>
          have noBlank := (isGap_eq_false_iff.mp (endsGap character rfl)).1
          refine List.takeWhile_cons_of_neg fun isSpace => ?_
          rw [eq_of_beq isSpace] at noBlank
          cases noBlank
    rw [none, List.length_nil, Nat.add_zero]
    cases wanted with
    | none => exact Nat.min_self count
    | some indentation => exact Nat.min_eq_left (within indentation rfl)
  · exact Nat.min_eq_right (Nat.le_add_right count _)

/-- There is no tab in the indentation. -/
theorem StartsLine.noTab
    {cursor : Cursor} (starts : StartsLine wanted count rest)
    (stands : cursor.StandsAt rest count) :
    (cursor.isAt '\t' && wanted.all fun column => cursor.column < column) = false := by
  rcases starts with ⟨endsGap, _⟩ | ⟨rfl, _⟩
  · rw [Bool.and_eq_false_iff]
    left
    rw [Cursor.isAt, stands.rest, beq_eq_false_iff_ne]
    intro isTab
    cases endsGap '\t' isTab
  · rw [Bool.and_eq_false_iff]
    right
    rw [stands.column]
    exact decide_eq_false (Nat.lt_irrefl count)

/-- Line breaks are read one after the other, and then the indentation of the next line. -/
theorem readEmptyLines_of_startsLine
    {breaks : List Char} {rounds : Nat} (lines : EmptyLines)
    (stands : lines.cursor.StandsAt (breaks ++ (Value.spaces count ++ rest)) 0)
    (printed : ∀ character ∈ breaks, IsPrintedBreak character)
    (starts : StartsLine wanted count rest) (enough : breaks.length < rounds) :
    ∃ stop,
      readEmptyLines wanted rounds lines =
          some ⟨breaks.reverse ++ lines.breaks, max lines.deepest count, stop⟩ ∧
        stop.StandsAt rest count := by
  obtain ⟨rounds, rfl⟩ :=
    Nat.exists_eq_add_one_of_ne_zero (Nat.ne_of_gt (Nat.zero_lt_of_lt enough))
  induction breaks generalizing rounds lines with
  | nil =>
      have stops := stands.skip (Value.spaces count)
      rw [Value.length_spaces, Nat.zero_add] at stops
      refine ⟨lines.cursor.skip count, ?_, stops⟩
      rw [readEmptyLines, stands.rest, stands.column, List.nil_append, starts.min_eq,
        starts.noTab stops, stops.lineBreak?_eq_none starts.noBreak, stops.column]
      rfl
  | cons first breaks ih =>
      rw [List.forall_mem_cons] at printed
      obtain ⟨rounds, rfl⟩ :=
        Nat.exists_eq_add_one_of_ne_zero
          (Nat.ne_of_gt (Nat.zero_lt_of_lt (Nat.lt_of_succ_lt_succ enough)))
      obtain ⟨next, breaksHere, isNext⟩ := stands.lineBreak?_of_isPrintedBreak printed.1
      obtain ⟨stop, reads, stops⟩ :=
        ih ⟨first :: lines.breaks, lines.deepest, next⟩ isNext printed.2 rounds
          (Nat.lt_of_succ_lt_succ enough)
      refine ⟨stop, ?_, stops⟩
      have none :
          (lines.cursor.rest.takeWhile (· == ' ')) = [] := by
        rw [stands.rest]
        refine List.takeWhile_cons_of_neg fun isSpace => ?_
        rw [eq_of_beq isSpace] at printed
        cases printed.1.1
      have noTab : lines.cursor.isAt '\t' = false := by
        apply stands.isAt_eq_false
        rintro rfl
        cases printed.1.1
      rw [readEmptyLines, none, List.length_nil, Nat.zero_min, Cursor.skip_zero, noTab,
        Bool.false_and, if_neg Bool.false_ne_true, breaksHere]
      dsimp only
      rw [stands.column, Nat.max_zero, reads, List.reverse_cons, List.append_assoc]
      rfl

theorem emptyLines?_of_startsLine
    {breaks : List Char} {cursor : Cursor}
    (stands : cursor.StandsAt (breaks ++ (Value.spaces count ++ rest)) 0)
    (printed : ∀ character ∈ breaks, IsPrintedBreak character)
    (starts : StartsLine wanted count rest) :
    ∃ stop,
      emptyLines? wanted cursor = some ⟨breaks.reverse, count, stop⟩ ∧
        stop.StandsAt rest count := by
  have enough : breaks.length < cursor.rest.length + 1 := by
    rw [stands.rest, List.length_append]
    omega
  obtain ⟨stop, reads, stops⟩ :=
    readEmptyLines_of_startsLine ⟨[], 0, cursor⟩ stands printed starts enough
  refine ⟨stop, ?_, stops⟩
  rw [emptyLines?, reads, List.append_nil, Nat.zero_max]

end

/-! ## Lines -/

/-- Whether some characters are a text of a block up to the end of its last line, with an
indentation in front of each line but the first and the empty ones. -/
inductive IsLines (indentation : Nat) : (text written : List Char) → Prop where
  | line {line : List Char}
    (noBreak : ∀ character ∈ line, isBreak character = false) (notEmpty : line ≠ []) :
    IsLines indentation line line
  | lines {line breaks text written : List Char} {first : Char}
    (noBreak : ∀ character ∈ line, isBreak character = false) (notEmpty : line ≠ [])
    (printed : ∀ character ∈ first :: breaks, IsPrintedBreak character)
    (rest : IsLines indentation text written) :
    IsLines indentation (line ++ (first :: breaks ++ text))
      (line ++ (first :: breaks ++ (Value.spaces indentation ++ written)))

section

variable {indentation count column rounds : Nat} {text written line tail : List Char}

theorem IsLines.noBreak (isLines : IsLines indentation text written) (more : List Char) :
    ∀ character ∈ (written ++ more).head?, isBreak character = false := by
  have ofLine {line : List Char} (noBreak : ∀ character ∈ line, isBreak character = false)
      (notEmpty : line ≠ []) (rest : List Char) :
      ∀ character ∈ (line ++ rest).head?, isBreak character = false := by
    intro character member
    rw [List.head?_append_of_ne_nil line notEmpty] at member
    exact noBreak character (List.mem_of_mem_head? member)
  cases isLines with
  | line noBreak notEmpty => exact ofLine noBreak notEmpty more
  | lines noBreak notEmpty printed rest =>
      rw [List.append_assoc]
      exact ofLine noBreak notEmpty _

/-- The last character of such a text is no line break. -/
theorem IsLines.exists_last (isLines : IsLines indentation text written) :
    ∃ front last, text = front ++ [last] ∧ isBreak last = false := by
  induction isLines with
  | @line line noBreak notEmpty =>
      exact
        ⟨line.dropLast, line.getLast notEmpty, (List.dropLast_append_getLast notEmpty).symm,
          noBreak _ (List.getLast_mem notEmpty)⟩
  | @lines line breaks text written first noBreak notEmpty printed rest ih =>
      obtain ⟨front, last, rfl, isLast⟩ := ih
      exact ⟨line ++ (first :: breaks ++ front), last, by simp, isLast⟩

theorem IsLines.length_le (isLines : IsLines indentation text written) :
    text.length ≤ written.length := by
  induction isLines with
  | line noBreak notEmpty => exact Nat.le_refl _
  | lines noBreak notEmpty printed rest ih =>
      simp only [List.length_append]
      omega

/-- A line is read with the empty lines after it. -/
theorem readLines_line
    {first : Char} {breaks rest : List Char} (rounds : Nat) (reading : Reading)
    (stands :
      reading.lines.cursor.StandsAt (line ++ (first :: breaks ++ (Value.spaces count ++ rest)))
        indentation)
    (noBreak : ∀ character ∈ line, isBreak character = false)
    (printed : ∀ character ∈ first :: breaks, IsPrintedBreak character)
    (starts : StartsLine (some indentation) count rest) :
    ∃ blank stop,
      readLines false indentation (rounds + 1) reading =
          readLines false indentation rounds
            ⟨line.reverse ++
                (reading.lines.breaks ++ reading.lineBreak.toList ++ reading.reversed),
              some first, blank, ⟨breaks.reverse, count, stop⟩⟩ ∧
        stop.StandsAt rest count := by
  rw [List.forall_mem_cons] at printed
  have someRest :
      ¬(reading.lines.cursor.column ≠ indentation ∨
        reading.lines.cursor.rest.isEmpty = true) := by
    rw [stands.column, stands.rest]
    simp
  have taken :
      reading.lines.cursor.takeWhile (!isBreak ·) =
        (line, reading.lines.cursor.skip line.length) := by
    apply stands.takeWhile_append
    · exact fun character member => by rw [noBreak character member]; rfl
    · rintro character ⟨⟩
      rw [printed.1.1]
      rfl
  obtain ⟨next, breaksHere, isNext⟩ := (stands.skip line).lineBreak?_of_isPrintedBreak printed.1
  obtain ⟨stop, reads, stops⟩ := emptyLines?_of_startsLine isNext printed.2 starts
  refine ⟨reading.lines.cursor.rest.head?.any isBlank, stop, ?_, stops⟩
  rw [readLines]
  dsimp only
  rw [if_neg someRest, taken]
  dsimp only
  rw [breaksHere]
  dsimp only
  rw [reads]
  rfl

theorem readLines_of_column_ne
    (reading : Reading) (different : reading.lines.cursor.column ≠ indentation) :
    readLines false indentation rounds reading = some reading := by
  cases rounds with
  | zero => rfl
  | succ rounds => exact if_pos (Or.inl different)

/-- The lines of a block are read up to the first line that is not indented so far. -/
theorem readLines_of_isLines
    (isLines : IsLines indentation text written) {first : Char} {breaks : List Char}
    (reading : Reading)
    (stands :
      reading.lines.cursor.StandsAt
        (written ++ (first :: breaks ++ (Value.spaces count ++ tail))) indentation)
    (printed : ∀ character ∈ first :: breaks, IsPrintedBreak character)
    (ends : count < indentation) (endsGap : EndsGap tail) (enough : text.length < rounds) :
    ∃ last,
      readLines false indentation rounds reading = some last ∧
        last.reversed =
            text.reverse ++
              (reading.lines.breaks ++ reading.lineBreak.toList ++ reading.reversed) ∧
          last.lineBreak = some first ∧
            last.lines.breaks = breaks.reverse ∧ last.lines.cursor.StandsAt tail count := by
  obtain ⟨rounds, rfl⟩ :=
    Nat.exists_eq_add_one_of_ne_zero (Nat.ne_of_gt (Nat.zero_lt_of_lt enough))
  induction isLines generalizing reading rounds with
  | @line line noBreak notEmpty =>
      have starts : StartsLine (some indentation) count tail :=
        Or.inl ⟨endsGap, by rintro _ ⟨⟩; exact Nat.le_of_lt ends⟩
      obtain ⟨blank, stop, reads, stops⟩ :=
        readLines_line rounds reading stands noBreak printed starts
      have different : stop.column ≠ indentation := by
        rw [stops.column]
        exact Nat.ne_of_lt ends
      exact ⟨_, reads.trans (readLines_of_column_ne _ different), rfl, rfl, rfl, stops⟩
  | @lines line between text written second noBreak notEmpty printedBetween rest ih =>
      rw [List.append_assoc, List.append_assoc, List.append_assoc] at stands
      obtain ⟨blank, stop, reads, stops⟩ :=
        readLines_line rounds reading stands noBreak printedBetween
          (Or.inr ⟨rfl, rest.noBreak _⟩)
      have someLine := List.length_pos_of_ne_nil notEmpty
      rw [List.length_append, List.length_append] at enough
      obtain ⟨rounds, rfl⟩ : ∃ fewer, rounds = fewer + 1 :=
        Nat.exists_eq_add_one_of_ne_zero (by omega)
      obtain ⟨last, readsRest, isText, isBreak, areBreaks, lastStops⟩ :=
        ih
          ⟨line.reverse ++ (reading.lines.breaks ++ reading.lineBreak.toList ++ reading.reversed),
            some second, blank, ⟨between.reverse, indentation, stop⟩⟩
          stops rounds (by omega)
      refine ⟨last, reads.trans readsRest, ?_, isBreak, areBreaks, lastStops⟩
      rw [isText]
      simp

/-! ## Printing -/

theorem blockLinesFrom_line
    (noBreak : ∀ character ∈ line, isBreak character = false) (rest : List Char) :
    Value.blockLinesFrom indentation false (line ++ rest) =
      line ++ Value.blockLinesFrom indentation false rest := by
  induction line with
  | nil => rfl
  | cons first line ih =>
      rw [List.forall_mem_cons] at noBreak
      rw [List.cons_append, Value.blockLinesFrom,
        if_neg (ne_true_of_eq_false noBreak.1), if_neg Bool.false_ne_true,
        ih noBreak.2]
      rfl

theorem blockLinesFrom_breaks
    (indentation : Nat) {breaks : List Char}
    (areBreaks : ∀ character ∈ breaks, isBreak character = true)
    (rest : List Char) :
    Value.blockLinesFrom indentation true (breaks ++ rest) =
      breaks ++ Value.blockLinesFrom indentation true rest := by
  induction breaks with
  | nil => rfl
  | cons first breaks ih =>
      rw [List.forall_mem_cons] at areBreaks
      rw [List.cons_append, Value.blockLinesFrom, if_pos areBreaks.1, ih areBreaks.2]
      rfl

/-- The first character of a line is indented. -/
theorem blockLinesFrom_indented
    (noBreak : ∀ character ∈ line.head?, isBreak character = false) (notEmpty : line ≠ []) :
    Value.blockLinesFrom indentation true line =
      Value.spaces indentation ++ Value.blockLinesFrom indentation false line := by
  cases line with
  | nil => exact absurd rfl notEmpty
  | cons first line =>
      have noBreak : ¬isBreak first = true := by
        rw [noBreak first rfl]
        exact Bool.false_ne_true
      rw [Value.blockLinesFrom, Value.blockLinesFrom, if_neg noBreak, if_neg noBreak, if_pos rfl,
        if_neg Bool.false_ne_true, List.nil_append]

/-- What is printed after the last line are the breaks of the text, or one if it has none. -/
theorem exists_blockLinesFrom_eq_cons
    (indentation : Nat) {trailing : List Char}
    (areBreaks : ∀ character ∈ trailing, IsPrintedBreak character) :
    ∃ first breaks,
      Value.blockLinesFrom indentation false trailing = first :: breaks ∧
        (∀ character ∈ first :: breaks, IsPrintedBreak character) ∧
          (trailing = [] ∨ trailing = first :: breaks) := by
  cases trailing with
  | nil => exact ⟨'\n', [], rfl, isPrintedBreak_lineFeed, Or.inl rfl⟩
  | cons first breaks =>
      refine ⟨first, breaks, ?_, areBreaks, Or.inr rfl⟩
      rw [List.forall_mem_cons] at areBreaks
      have rest :=
        blockLinesFrom_breaks indentation
          (fun character member => (areBreaks.2 character member).1) []
      rw [List.append_nil, Value.blockLinesFrom, if_pos rfl, List.append_nil] at rest
      rw [Value.blockLinesFrom, if_pos areBreaks.1.1, rest]

/-- A text that starts with no line break is lines, and breaks after the last one. -/
theorem exists_isLines
    (indentation : Nat) (printable : Value.ArePrintable text)
    (noBreak : ∀ character ∈ text.head?, isBreak character = false) (notEmpty : text ≠ []) :
    ∃ body written trailing,
      text = body ++ trailing ∧ IsLines indentation body written ∧
        (∀ character ∈ trailing, IsPrintedBreak character) ∧
          Value.blockLinesFrom indentation false text =
            written ++ Value.blockLinesFrom indentation false trailing := by
  induction length : text.length using Nat.strongRecOn generalizing text with
  | ind length_ ih =>
      obtain ⟨line, breaks, rest, rfl, noBreakInLine, areBreaks, restNoBreak, noRest⟩ :=
        exists_word isBreak text
      have someLine : line ≠ [] := by
        rintro rfl
        cases breaks with
        | nil => exact notEmpty (noRest rfl)
        | cons first breaks =>
            have isBreak := areBreaks first List.mem_cons_self
            rw [noBreak first rfl] at isBreak
            cases isBreak
      have printed : ∀ character ∈ breaks, IsPrintedBreak character :=
        fun character member =>
          ⟨areBreaks character member, printable character (by simp [member])⟩
      rw [blockLinesFrom_line noBreakInLine]
      by_cases someRest : rest = []
      · subst someRest
        rw [List.append_nil]
        exact ⟨line, line, breaks, rfl, IsLines.line noBreakInLine someLine, printed, rfl⟩
      · cases breaks with
        | nil => exact absurd (noRest rfl) someRest
        | cons first breaks =>
            have positive := List.length_pos_of_ne_nil someLine
            obtain ⟨body, written, trailing, split, isLines, areTrailing, isWritten⟩ :=
              ih rest.length (by simp at length; omega)
                (fun character member => printable character (by simp [member])) restNoBreak
                someRest rfl
            rw [List.forall_mem_cons] at areBreaks
            refine
              ⟨line ++ (first :: breaks ++ body), _, trailing, ?_,
                IsLines.lines noBreakInLine someLine printed isLines, areTrailing, ?_⟩
            · rw [split]
              simp
            · rw [List.cons_append, Value.blockLinesFrom, if_pos areBreaks.1,
                blockLinesFrom_breaks _ areBreaks.2, blockLinesFrom_indented restNoBreak someRest,
                isWritten]
              simp

/-- The sign in the header keeps the line breaks at the end of the text. -/
theorem exists_chomping
    (front : List Char) {last first : Char} {trailing breaks : List Char}
    (noBreak : isBreak last = false) (areBreaks : ∀ character ∈ trailing, isBreak character = true)
    (isTrailing : trailing = [] ∨ trailing = first :: breaks) :
    ∃ chomping : Chomping,
      Value.chompingSign (front ++ [last] ++ trailing) = chomping.sign ∧
        ∀ reading : Reading,
          reading.lineBreak = some first → reading.lines.breaks = breaks.reverse →
            keptBreaks chomping reading = trailing.reverse := by
  rcases isTrailing with rfl | rfl
  · refine ⟨.strip, ?_, fun _ _ _ => rfl⟩
    rw [Value.chompingSign, List.append_nil, List.reverse_append]
    exact if_pos (by rw [noBreak]; rfl)
  · rw [List.forall_mem_cons] at areBreaks
    cases split : breaks.reverse with
    | nil =>
        obtain rfl := List.reverse_eq_nil_iff.mp split
        refine ⟨.clip, ?_, fun reading lineBreak _ => ?_⟩
        · simp [Value.chompingSign, areBreaks.1, noBreak, Chomping.sign]
        · rw [keptBreaks, lineBreak]
          rfl
    | cons second others =>
        have isSecond : isBreak second = true := areBreaks.2 second (by
          rw [← List.mem_reverse, split]
          exact List.mem_cons_self)
        have isOther : ∀ character ∈ (others ++ [first]).head?, isBreak character = true := by
          intro character member
          have inside := List.mem_of_mem_head? member
          rw [List.mem_append, List.mem_singleton] at inside
          rcases inside with inside | rfl
          · apply areBreaks.2
            rw [← List.mem_reverse, split]
            exact List.mem_cons_of_mem _ inside
          · exact areBreaks.1
        refine ⟨.keep, ?_, fun reading lineBreak isBreaks => ?_⟩
        · rw [Value.chompingSign, List.reverse_append, List.reverse_cons, split]
          cases others with
          | nil => simp [isSecond, isOther first rfl, Chomping.sign]
          | cons third others => simp [isSecond, isOther third rfl, Chomping.sign]
        · rw [keptBreaks, lineBreak, isBreaks, List.reverse_cons, split]
          rfl

end

section

variable
    {level count column : Nat} {chomping : Chomping} {shown : Bool} {cursor : Cursor}
    {breaks rest text tail : List Char}

/-- After the header and the empty lines at the beginning, what is left are the lines. -/
theorem exists_read?_eq_readLines
    (stands :
      cursor.StandsAt
        ('|' :: ((if shown then [] else ['2']) ++ chomping.sign ++
          '\n' :: (breaks ++ (Value.spaces count ++ rest)))) column)
    (printed : ∀ character ∈ breaks, IsPrintedBreak character)
    (starts : StartsLine (if shown then none else some (level + 2)) count rest)
    (isIndentation : shown = true → count = level + 2) :
    ∃ stop rounds,
      stop.StandsAt rest count ∧ rest.length < rounds ∧
        read? false (some level) cursor =
          (readLines false (level + 2) rounds
            ⟨[], none, false, ⟨breaks.reverse, count, stop⟩⟩).map fun reading =>
              (String.ofList (keptBreaks chomping reading ++ reading.reversed).reverse,
                reading.lines.cursor) := by
  obtain ⟨next, readsHeader, isNext⟩ := readHeader?_sign stands.skip_one
  obtain ⟨stop, readsLines, stops⟩ := emptyLines?_of_startsLine isNext printed starts
  refine ⟨stop, next.rest.length + 1, stops, ?_, ?_⟩
  · rw [isNext.rest, List.length_append, List.length_append]
    omega
  · have isWanted :
        (if shown then none else some 2).map
            (fun indentation => (some level).getD 0 + indentation) =
          if shown then none else some (level + 2) := by
      cases shown <;> rfl
    have isLeast :
        (if shown then none else some (level + 2)).getD (max count ((some level).elim 1 (· + 1))) =
          level + 2 := by
      cases shown with
      | true =>
          rw [isIndentation rfl]
          exact Nat.max_eq_left (by simp)
      | false => rfl
    rw [read?, readsHeader]
    simp only [Option.bind_eq_bind, Option.bind_some, isWanted, readsLines, isLeast]
    cases readLines false (level + 2) (next.rest.length + 1)
      ⟨[], none, false, ⟨breaks.reverse, count, stop⟩⟩ <;> rfl

/-- The first line shows the indentation, or the header gives it. -/
theorem startsLine_blockLinesFrom
    (leading : List Char) {first : Char} (isPrintable : Value.isPrintable first = true)
    (noBreak : isBreak first = false) (areBreaks : ∀ character ∈ leading, isBreak character = true)
    (indentation : Nat) (text more : List Char) :
    let shown :=
      !(leading ++ first :: text).head?.any fun character =>
        character == ' ' || isBreak character
    StartsLine (if shown then none else some indentation) indentation
      (Value.blockLinesFrom indentation false (first :: text) ++ more) := by
  have isWritten :
      Value.blockLinesFrom indentation false (first :: text) =
        first :: Value.blockLinesFrom indentation false text := by
    rw [Value.blockLinesFrom, if_neg (ne_true_of_eq_false noBreak),
      if_neg Bool.false_ne_true, List.nil_append]
  have given : StartsLine (some indentation) indentation
      (Value.blockLinesFrom indentation false (first :: text) ++ more) := by
    refine Or.inr ⟨rfl, ?_⟩
    rw [isWritten]
    rintro _ ⟨⟩
    exact noBreak
  dsimp only
  cases leading with
  | nil =>
      cases isSpace : first == ' ' with
      | true => simpa [isSpace] using given
      | false =>
          have endsGap : isGap first = false :=
            isGap_eq_false_of_isPrintable isPrintable (beq_eq_false_iff_ne.mp isSpace) noBreak
          rw [isWritten]
          simp only [List.nil_append, List.head?_cons, Option.any_some, isSpace, noBreak]
          exact Or.inl ⟨endsGap_cons_iff.mpr endsGap, nofun⟩
  | cons character leading =>
      rw [List.forall_mem_cons] at areBreaks
      simpa [areBreaks.1] using given

/-- A text of line breaks alone has no lines, and all of it comes after the header. -/
theorem read?_literalBlock_of_isBreak
    (printed : ∀ character ∈ text, IsPrintedBreak character) (notEmpty : text ≠ [])
    (stands :
      cursor.StandsAt (Value.literalBlock (level + 2) text ++ (Value.spaces count ++ tail)) column)
    (ends : count ≤ level) (endsGap : EndsGap tail) :
    ∃ stop,
      read? false (some level) cursor = some (String.ofList text, stop) ∧
        stop.StandsAt tail count := by
  have notShown :
      (!text.head?.any fun character => character == ' ' || isBreak character) = false := by
    cases text with
    | nil => exact absurd rfl notEmpty
    | cons first text => simp [(printed first List.mem_cons_self).1]
  have isKept : Value.chompingSign text = Chomping.keep.sign := by
    rw [Value.chompingSign]
    cases split : text.reverse with
    | nil => exact absurd (List.reverse_eq_nil_iff.mp split) notEmpty
    | cons last before =>
        have inside : ∀ character ∈ last :: before, isBreak character = true := by
          rw [← split]
          exact fun character member => (printed character (List.mem_reverse.mp member)).1
        rw [List.forall_mem_cons] at inside
        cases before with
        | nil => simp [inside.1, Chomping.sign]
        | cons second before => simp [inside.1, inside.2, Chomping.sign]
  have lines :=
    blockLinesFrom_breaks (level + 2) (fun character member => (printed character member).1) []
  rw [Value.blockLinesFrom, if_pos rfl, List.append_nil] at lines
  rw [Value.literalBlock, lines, notShown, isKept] at stands
  have starts : StartsLine (if false then none else some (level + 2)) count tail :=
    Or.inl ⟨endsGap, by rintro _ ⟨⟩; omega⟩
  obtain ⟨stop, rounds, stops, _, reads⟩ :=
    exists_read?_eq_readLines (by simpa using stands) printed starts nofun
  have different : stop.column ≠ level + 2 := by
    rw [stops.column]
    omega
  refine ⟨stop, ?_, stops⟩
  rw [reads, readLines_of_column_ne _ different]
  simp [keptBreaks]

/-- A text with a line that is not empty is read back line by line. -/
theorem read?_literalBlock_of_not_isBreak
    {leading : List Char} {first : Char}
    (printable : Value.ArePrintable (leading ++ first :: rest))
    (areBreaks : ∀ character ∈ leading, isBreak character = true)
    (noBreak : isBreak first = false)
    (stands :
      cursor.StandsAt
        (Value.literalBlock (level + 2) (leading ++ first :: rest) ++
          (Value.spaces count ++ tail)) column)
    (ends : count ≤ level) (endsGap : EndsGap tail) :
    ∃ stop,
      read? false (some level) cursor = some (String.ofList (leading ++ first :: rest), stop) ∧
        stop.StandsAt tail count := by
  rw [Value.ArePrintable.append_iff] at printable
  have startsLine : ∀ character ∈ (first :: rest).head?, isBreak character = false := by
    rintro _ ⟨⟩
    exact noBreak
  obtain ⟨body, written, trailing, split, isLines, areTrailing, isWritten⟩ :=
    exists_isLines (level + 2) printable.2 startsLine (List.cons_ne_nil first rest)
  obtain ⟨lineBreak, breaks, isEnd, printedEnd, isTrailing⟩ :=
    exists_blockLinesFrom_eq_cons (level + 2) areTrailing
  obtain ⟨front, last, isBody, lastNoBreak⟩ := isLines.exists_last
  obtain ⟨chomping, isSign, keeps⟩ :=
    exists_chomping (leading ++ front) lastNoBreak
      (fun character member => (areTrailing character member).1) isTrailing
  have isText : leading ++ first :: rest = leading ++ front ++ [last] ++ trailing := by
    rw [split, isBody]
    simp
  rw [Value.literalBlock, blockLinesFrom_breaks _ areBreaks,
    blockLinesFrom_indented startsLine (List.cons_ne_nil _ _), isText, isSign, ← isText] at stands
  have starts :=
    startsLine_blockLinesFrom leading (printable.2 first List.mem_cons_self) noBreak areBreaks
      (level + 2) rest (Value.spaces count ++ tail)
  obtain ⟨stop, rounds, stops, enough, reads⟩ :=
    exists_read?_eq_readLines (by simpa using stands)
      (fun character member => ⟨areBreaks character member, printable.1 character member⟩) starts
      fun _ => rfl
  rw [isWritten, isEnd, List.append_assoc] at stops
  have shorter : body.length < rounds := by
    have shorter := isLines.length_le
    rw [isWritten, List.length_append, List.length_append] at enough
    omega
  obtain ⟨reading, readsLines, isReversed, isLineBreak, isBreaks, atEnd⟩ :=
    readLines_of_isLines isLines ⟨[], none, false, ⟨leading.reverse, level + 2, stop⟩⟩ stops
      printedEnd (Nat.lt_add_right 1 (Nat.lt_succ_of_le ends)) endsGap shorter
  refine ⟨reading.lines.cursor, ?_, atEnd⟩
  rw [reads, readsLines, Option.map_some, keeps reading isLineBreak isBreaks, isReversed, split]
  simp

/-- A text as a literal block is read back, up to the next line that is indented less. -/
theorem read?_literalBlock
    (printable : Value.ArePrintable text) (notEmpty : text ≠ [])
    (stands :
      cursor.StandsAt (Value.literalBlock (level + 2) text ++ (Value.spaces count ++ tail)) column)
    (ends : count ≤ level) (endsGap : EndsGap tail) :
    ∃ stop,
      read? false (some level) cursor = some (String.ofList text, stop) ∧
        stop.StandsAt tail count := by
  have areBreaks : ∀ character ∈ text.takeWhile isBreak, isBreak character = true :=
    List.all_eq_true.mp List.all_takeWhile
  have split : text.takeWhile isBreak ++ text.dropWhile isBreak = text :=
    List.takeWhile_append_dropWhile
  have first := List.head?_dropWhile_not isBreak text
  cases rest : text.dropWhile isBreak with
  | nil =>
      rw [rest, List.append_nil] at split
      rw [split] at areBreaks
      exact
        read?_literalBlock_of_isBreak
          (fun character member => ⟨areBreaks character member, printable character member⟩)
          notEmpty stands ends endsGap
  | cons character rest =>
      rw [rest] at split first
      rw [← split] at printable stands ⊢
      exact read?_literalBlock_of_not_isBreak printable areBreaks first stands ends endsGap

end

end SourcePreview.Yaml.Block
