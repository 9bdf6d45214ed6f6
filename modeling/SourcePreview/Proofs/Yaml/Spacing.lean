import SourcePreview.Yaml.Printer

/-!
# White space in printed YAML documents

Between the words of a printed document there are spaces, or line breaks and the indentation of the
next line.  The readers of scalars go over such a gap at once, and keep what it stands for.
-/

namespace SourcePreview.Yaml

theorem isBreak_iff {character : Char} :
    isBreak character = true ↔
      character = '\n' ∨ character = '\r' ∨ character = '\u0085' ∨ character = '\u2028' ∨
        character = '\u2029' := by
  simp [isBreak, or_assoc]

theorem isBlank_iff {character : Char} :
    isBlank character = true ↔ character = ' ' ∨ character = '\t' := by
  simp [isBlank]

theorem isGap_eq_false_iff {character : Char} :
    isGap character = false ↔ isBlank character = false ∧ isBreak character = false := by
  rw [isGap, Bool.or_eq_false_iff]

/-- A blank that can be printed is a space. -/
theorem eq_space_of_isBlank
    {character : Char} (isBlank : isBlank character = true)
    (isPrintable : Value.isPrintable character = true) :
    character = ' ' := by
  rcases isBlank_iff.mp isBlank with rfl | rfl
  · rfl
  · cases isPrintable

/-- The only white space that can be printed are spaces and line breaks. -/
theorem isGap_eq_false_of_isPrintable
    {character : Char} (isPrintable : Value.isPrintable character = true)
    (noSpace : character ≠ ' ') (noBreak : isBreak character = false) :
    isGap character = false := by
  rw [isGap_eq_false_iff]
  refine ⟨?_, noBreak⟩
  rw [← Bool.not_eq_true]
  exact fun blank => noSpace (eq_space_of_isBlank blank isPrintable)

/-- Whether a character is a line break that can be printed. -/
def IsPrintedBreak (character : Char) : Prop :=
  isBreak character = true ∧ Value.isPrintable character = true

theorem isPrintedBreak_lineFeed : ∀ character ∈ ['\n'], IsPrintedBreak character :=
  List.forall_mem_singleton.mpr ⟨rfl, rfl⟩

/-- Whether a text has only characters that can be printed. -/
def Value.ArePrintable (text : List Char) : Prop :=
  ∀ character ∈ text, isPrintable character = true

namespace Value.ArePrintable

variable {text rest : List Char} {character : Char}

theorem nil : ArePrintable [] :=
  fun _ member => nomatch member

theorem cons_iff :
    ArePrintable (character :: rest) ↔ isPrintable character = true ∧ ArePrintable rest :=
  List.forall_mem_cons

theorem cons (first : isPrintable character = true) (more : ArePrintable rest) :
    ArePrintable (character :: rest) :=
  cons_iff.mpr ⟨first, more⟩

theorem append_iff :
    ArePrintable (text ++ rest) ↔ ArePrintable text ∧ ArePrintable rest :=
  List.forall_mem_append

theorem append (first : ArePrintable text) (second : ArePrintable rest) :
    ArePrintable (text ++ rest) :=
  append_iff.mpr ⟨first, second⟩

end Value.ArePrintable

theorem Value.arePrintable_of_not_needsEscapes
    {text : List Char} (noEscapes : needsEscapes text = false) :
    ArePrintable text := by
  rw [needsEscapes, Bool.or_eq_false_iff, List.any_eq_false] at noEscapes
  intro character member
  simpa using noEscapes.1 character member

theorem Value.spaces_succ (count : Nat) : spaces (count + 1) = ' ' :: spaces count :=
  rfl

theorem Value.spaces_append_cons (count : Nat) (rest : List Char) :
    spaces count ++ ' ' :: rest = ' ' :: (spaces count ++ rest) := by
  rw [← List.cons_append, ← spaces_succ, spaces, spaces, List.replicate_succ', List.append_assoc]
  rfl

@[simp]
theorem Value.length_spaces (count : Nat) : (spaces count).length = count :=
  List.length_replicate

@[simp]
theorem Value.reverse_spaces (count : Nat) : (spaces count).reverse = spaces count :=
  List.reverse_replicate

/-- White space of characters that can be printed is spaces if there is no line break in it. -/
theorem Value.eq_spaces
    {gap : List Char} (isGap : ∀ character ∈ gap, isGap character = true)
    (printable : ArePrintable gap)
    (noBreak : ∀ character ∈ gap, isBreak character = false) :
    gap = spaces gap.length := by
  rw [spaces, List.eq_replicate_iff]
  refine ⟨rfl, fun character member => ?_⟩
  have isGap := isGap character member
  rw [Yaml.isGap, noBreak character member, Bool.or_false] at isGap
  exact eq_space_of_isBlank isGap (printable character member)

/-- Whether no white space comes next. -/
def EndsGap (rest : List Char) : Prop :=
  ∀ character ∈ rest.head?, isGap character = false

theorem endsGap_nil : EndsGap [] :=
  fun _ member => nomatch member

theorem EndsGap.append
    {first : List Char} (endsGap : EndsGap first) (notEmpty : first ≠ []) (rest : List Char) :
    EndsGap (first ++ rest) := by
  cases first with
  | nil => exact absurd rfl notEmpty
  | cons character first => exact endsGap

theorem EndsGap.append_cons
    {first : List Char} (endsGap : EndsGap first) {next : Char} (noGap : isGap next = false)
    (rest : List Char) :
    EndsGap (first ++ next :: rest) := by
  cases first with
  | nil => simpa [EndsGap] using noGap
  | cons character first => exact endsGap

theorem startsGap_append
    {first : List Char} (starts : startsGap first = false) (rest : List Char) :
    startsGap (first ++ rest) = false := by
  cases first with
  | nil => cases starts
  | cons character first => exact starts

theorem endsGap_cons_iff {character : Char} {rest : List Char} :
    EndsGap (character :: rest) ↔ isGap character = false := by
  simp [EndsGap]

namespace Cursor

/-- Whether a cursor stands in a column in front of the rest of a document. -/
structure StandsAt (cursor : Cursor) (rest : List Char) (column : Nat) : Prop where
  rest : cursor.rest = rest
  column : cursor.column = column

section

variable {cursor : Cursor} {character : Char} {rest : List Char} {column : Nat}

theorem StandsAt.skip
    (first : List Char) (stands : cursor.StandsAt (first ++ rest) column) :
    (cursor.skip first.length).StandsAt rest (column + first.length) := by
  constructor
  · rw [Cursor.skip, stands.rest, List.drop_left]
  · rw [Cursor.skip, stands.column]

theorem StandsAt.skip_one (stands : cursor.StandsAt (character :: rest) column) :
    (cursor.skip 1).StandsAt rest (column + 1) :=
  StandsAt.skip [character] stands

@[simp]
theorem skip_zero (cursor : Cursor) : cursor.skip 0 = cursor :=
  rfl

theorem skip_skip (cursor : Cursor) (first second : Nat) :
    (cursor.skip first).skip second = cursor.skip (first + second) := by
  simp [skip, Nat.add_assoc]

/-- The characters of a class are taken up to the first one that is not of it. -/
theorem StandsAt.takeWhile_append
    {first : List Char} {isIn : Char → Bool} (stands : cursor.StandsAt (first ++ rest) column)
    (areIn : ∀ character ∈ first, isIn character = true)
    (stops : ∀ character ∈ rest.head?, isIn character = false) :
    cursor.takeWhile isIn = (first, cursor.skip first.length) := by
  have taken : rest.takeWhile isIn = [] := by
    cases rest with
    | nil => rfl
    | cons character rest =>
        exact List.takeWhile_cons_of_neg (ne_true_of_eq_false (stops character rfl))
  rw [takeWhile, stands.rest, List.takeWhile_append_of_pos areIn, taken, List.append_nil]

/-- Where no character of a class comes next, none is skipped. -/
theorem StandsAt.skipWhile_eq_self
    {isIn : Char → Bool} (stands : cursor.StandsAt rest column)
    (stops : ∀ character ∈ rest.head?, isIn character = false) :
    cursor.skipWhile isIn = cursor := by
  have none : cursor.StandsAt ([] ++ rest) column := stands
  exact congrArg Prod.snd (none.takeWhile_append (fun _ member => nomatch member) stops)

/-- The line breaks that can be printed are kept as they are. -/
theorem StandsAt.lineBreak?_of_isPrintedBreak
    (stands : cursor.StandsAt (character :: rest) column) (printed : IsPrintedBreak character) :
    ∃ next, cursor.lineBreak? = some (character, next) ∧ next.StandsAt rest 0 := by
  obtain ⟨isBreak, isPrintable⟩ := printed
  have isNext : (cursor.newLine 1).StandsAt rest 0 := by
    constructor
    · rw [newLine, stands.rest]
      rfl
    · rfl
  refine ⟨cursor.newLine 1, ?_, isNext⟩
  rw [lineBreak?, stands.rest]
  rcases isBreak_iff.mp isBreak with rfl | rfl | rfl | rfl | rfl
  · rfl
  · cases isPrintable
  · cases isPrintable
  · rfl
  · rfl

theorem StandsAt.lineBreak?_eq_none
    (stands : cursor.StandsAt rest column)
    (noBreak : ∀ character ∈ rest.head?, isBreak character = false) :
    cursor.lineBreak? = none := by
  rw [lineBreak?, stands.rest]
  split
  · exact absurd (noBreak '\r' rfl) (by decide)
  · next character _ _ =>
      have noBreak := noBreak character rfl
      rw [if_neg, if_neg]
      · rw [noBreak]
        exact Bool.false_ne_true
      · rintro (rfl | rfl)
        all_goals exact absurd noBreak (by decide)
  · rfl

theorem StandsAt.lineBreak?_of_endsGap
    (stands : cursor.StandsAt rest column) (endsGap : EndsGap rest) :
    cursor.lineBreak? = none :=
  stands.lineBreak?_eq_none fun character member =>
    (isGap_eq_false_iff.mp (endsGap character member)).2

/-- The marks of documents stand at the beginning of lines. -/
theorem StandsAt.isAtDocumentMark_eq_false
    (stands : cursor.StandsAt rest column) (inside : 0 < column) :
    cursor.isAtDocumentMark = false := by
  rw [isAtDocumentMark, stands.column, beq_eq_false_iff_ne.mpr (Nat.ne_of_gt inside)]
  rfl

theorem StandsAt.isAt_eq_false
    (stands : cursor.StandsAt (character :: rest) column) {other : Char}
    (different : character ≠ other) :
    cursor.isAt other = false := by
  rw [isAt, stands.rest, List.head?_cons, beq_eq_false_iff_ne]
  exact fun same => different (Option.some.inj same)

end

end Cursor

namespace Gap

variable {least rounds count column : Nat} {cursor : Cursor} {rest : List Char}

/-- White space ends where there is none. -/
theorem readFrom_of_endsGap
    (gap : Gap) (stands : cursor.StandsAt rest column) (endsGap : EndsGap rest) :
    readFrom least rounds gap cursor = some (gap, cursor) := by
  cases rounds with
  | zero => rfl
  | succ rounds =>
      rw [readFrom, stands.lineBreak?_of_endsGap endsGap, stands.rest]
      cases rest with
      | nil => rfl
      | cons character rest =>
          have noBlank := (isGap_eq_false_iff.mp (endsGap_cons_iff.mp endsGap)).1
          dsimp only
          rw [if_pos]
          rw [noBlank]
          rfl

/-- The gap after some more spaces: before the next word they are kept as they are, and at the
beginning of a line they are indentation. -/
def withSpaces (gap : Gap) (count : Nat) : Gap :=
  if gap.broken then gap else { gap with blanks := Value.spaces count ++ gap.blanks }

theorem withSpaces_succ (gap : Gap) (count : Nat) :
    gap.withSpaces (count + 1) = (gap.withSpaces 1).withSpaces count := by
  cases broken : gap.broken with
  | true => simp [withSpaces, broken]
  | false =>
      simp only [withSpaces, broken, Bool.false_eq_true, if_false, Value.spaces_succ,
        List.cons_append, ← Value.spaces_append_cons]
      rfl

theorem readFrom_space
    (gap : Gap) (stands : cursor.StandsAt (' ' :: rest) column) :
    readFrom least (rounds + 1) gap cursor =
      readFrom least rounds (gap.withSpaces 1) (cursor.skip 1) := by
  rw [readFrom, stands.lineBreak?_eq_none (by simp [isBreak]), stands.rest, withSpaces]
  dsimp only
  rw [if_neg (by decide)]
  split
  · rw [if_neg (by simp)]
  · rfl

theorem readFrom_spaces
    (gap : Gap) (stands : cursor.StandsAt (Value.spaces count ++ rest) column)
    (endsGap : EndsGap rest) (enough : count < rounds) :
    ∃ stop,
      readFrom least rounds gap cursor = some (gap.withSpaces count, stop) ∧
        stop.StandsAt rest (column + count) := by
  induction count generalizing rounds gap cursor column with
  | zero =>
      refine ⟨cursor, ?_, stands⟩
      rw [readFrom_of_endsGap gap stands endsGap, withSpaces]
      exact congrArg (fun gap => some (gap, cursor)) (ite_self gap).symm
  | succ count ih =>
      cases rounds with
      | zero => exact absurd enough (Nat.not_lt_zero _)
      | succ rounds =>
          obtain ⟨stop, reads, stops⟩ :=
            ih (gap.withSpaces 1) stands.skip_one (Nat.lt_of_succ_lt_succ enough)
          refine ⟨stop, ?_, ?_⟩
          · rw [readFrom_space gap stands, reads, ← withSpaces_succ]
          · rw [Nat.add_right_comm] at stops
            exact stops

/-- Further line breaks are kept as they are, and the indentation after the last one does not
count. -/
theorem readFrom_breaks
    {breaks : List Char} (gap : Gap)
    (stands : cursor.StandsAt (breaks ++ (Value.spaces count ++ rest)) 0)
    (printed : ∀ character ∈ breaks, IsPrintedBreak character) (broken : gap.broken = true)
    (endsGap : EndsGap rest) (enough : breaks.length + count < rounds) :
    ∃ stop,
      readFrom least rounds gap cursor =
          some ({ gap with later := breaks.reverse ++ gap.later }, stop) ∧
        stop.StandsAt rest count := by
  induction breaks generalizing rounds gap cursor with
  | nil =>
      rw [List.length_nil, Nat.zero_add] at enough
      obtain ⟨stop, reads, stops⟩ := readFrom_spaces gap stands endsGap enough
      rw [Nat.zero_add] at stops
      refine ⟨stop, ?_, stops⟩
      rw [reads, withSpaces, if_pos broken]
      rfl
  | cons first breaks ih =>
      rw [List.forall_mem_cons] at printed
      cases rounds with
      | zero => exact absurd enough (Nat.not_lt_zero _)
      | succ rounds =>
          rw [List.length_cons, Nat.add_right_comm] at enough
          obtain ⟨next, breaksHere, isNext⟩ := stands.lineBreak?_of_isPrintedBreak printed.1
          obtain ⟨stop, reads, stops⟩ :=
            ih { gap with later := first :: gap.later } isNext printed.2 broken
              (Nat.lt_of_succ_lt_succ enough)
          refine ⟨stop, ?_, stops⟩
          rw [readFrom, breaksHere]
          dsimp only
          rw [if_pos broken, reads, List.reverse_cons, List.append_assoc]
          rfl

end Gap

section

variable {count column : Nat} {cursor : Cursor} {rest : List Char} (least : Nat)

/-- Where there is no white space there is no gap. -/
theorem Cursor.StandsAt.read?_of_endsGap
    (stands : cursor.StandsAt rest column) (endsGap : EndsGap rest) :
    Gap.none.read? least cursor = some (Gap.none, cursor) :=
  Gap.readFrom_of_endsGap Gap.none stands endsGap

/-- Spaces between two words are a gap of their own. -/
theorem Cursor.StandsAt.read?_spaces
    (stands : cursor.StandsAt (Value.spaces count ++ rest) column) (endsGap : EndsGap rest) :
    ∃ stop,
      Gap.none.read? least cursor = some (⟨Value.spaces count, false, none, []⟩, stop) ∧
        stop.StandsAt rest (column + count) := by
  have enough : count < cursor.rest.length + 1 := by
    rw [stands.rest, List.length_append, Value.length_spaces]
    omega
  obtain ⟨stop, reads, stops⟩ := Gap.readFrom_spaces Gap.none stands endsGap enough
  refine ⟨stop, ?_, stops⟩
  rw [Gap.read?, reads]
  simp [Gap.withSpaces, Gap.none]

/-- Line breaks and the indentation after them are a gap of their own. -/
theorem Cursor.StandsAt.read?_breaks
    {first : Char} {breaks : List Char}
    (stands : cursor.StandsAt (first :: breaks ++ (Value.spaces count ++ rest)) column)
    (printed : ∀ character ∈ first :: breaks, IsPrintedBreak character)
    (endsGap : EndsGap rest) :
    ∃ stop,
      Gap.none.read? least cursor = some (⟨[], true, some first, breaks.reverse⟩, stop) ∧
        stop.StandsAt rest count := by
  rw [List.forall_mem_cons] at printed
  have enough : breaks.length + count < cursor.rest.length := by
    rw [stands.rest, List.length_append, List.length_append, Value.length_spaces,
      List.length_cons]
    omega
  obtain ⟨next, breaksHere, isNext⟩ := stands.lineBreak?_of_isPrintedBreak printed.1
  obtain ⟨stop, reads, stops⟩ :=
    Gap.readFrom_breaks ⟨[], true, some first, []⟩ isNext printed.2 rfl endsGap enough
  refine ⟨stop, ?_, stops⟩
  rw [Gap.read?, Gap.readFrom, breaksHere]
  dsimp only
  rw [if_neg (by decide), reads, List.append_nil]

end

/-! ## Words -/

/-- A text is a word, then characters of a class that separates words, and then what starts with
another word, if there is more of it. -/
theorem exists_word (separates : Char → Bool) (text : List Char) :
    ∃ word gap rest,
      text = word ++ (gap ++ rest) ∧ (∀ character ∈ word, separates character = false) ∧
        (∀ character ∈ gap, separates character = true) ∧
        (∀ character ∈ rest.head?, separates character = false) ∧ (gap = [] → rest = []) := by
  have split : text = text.takeWhile (!separates ·) ++ text.dropWhile (!separates ·) :=
    List.takeWhile_append_dropWhile.symm
  generalize isRest : text.dropWhile (!separates ·) = rest at split
  have starts : ∀ character ∈ rest.head?, separates character = true := by
    intro character member
    have first := List.head?_dropWhile_not (!separates ·) text
    rw [isRest, Option.mem_def.mp member] at first
    simpa using first
  refine
    ⟨text.takeWhile (!separates ·), rest.takeWhile separates, rest.dropWhile separates, ?_, ?_,
      List.all_eq_true.mp List.all_takeWhile, fun character member => ?_, fun none => ?_⟩
  · rw [List.takeWhile_append_dropWhile]
    exact split
  · intro character member
    simpa using List.all_eq_true.mp List.all_takeWhile character member
  · have first := List.head?_dropWhile_not separates rest
    rw [Option.mem_def.mp member] at first
    exact first
  · cases rest with
    | nil => rfl
    | cons character rest =>
        rw [List.takeWhile_cons_of_pos (starts character rfl)] at none
        cases none

namespace Value

variable {isFirst isSecond : Char → Bool}

theorem hasPair_of_append
    {front rest : List Char} (noPair : hasPair isFirst isSecond (front ++ rest) = false) :
    hasPair isFirst isSecond rest = false := by
  induction front with
  | nil => exact noPair
  | cons first front ih =>
      apply ih
      rw [List.cons_append] at noPair
      cases split : front ++ rest with
      | nil => rfl
      | cons second others =>
          rw [split, hasPair, Bool.or_eq_false_iff] at noPair
          exact noPair.2

theorem hasPair_of_append_left
    {front rest : List Char} (noPair : hasPair isFirst isSecond (front ++ rest) = false) :
    hasPair isFirst isSecond front = false := by
  induction front with
  | nil => rfl
  | cons first front ih =>
      cases front with
      | nil => rfl
      | cons second front =>
          rw [List.cons_append, List.cons_append, hasPair, Bool.or_eq_false_iff] at noPair
          rw [hasPair, Bool.or_eq_false_iff]
          exact ⟨noPair.1, ih noPair.2⟩

/-- No character of the one class is followed by one of the other. -/
theorem not_isSecond_of_not_hasPair
    {rest : List Char} {first second : Char}
    (noPair : hasPair isFirst isSecond (first :: second :: rest) = false)
    (isFirstHere : isFirst first = true) :
    isSecond second = false := by
  rw [hasPair, Bool.or_eq_false_iff, isFirstHere, Bool.true_and] at noPair
  exact noPair.1

end Value

end SourcePreview.Yaml
