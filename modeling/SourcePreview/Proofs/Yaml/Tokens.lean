import SourcePreview.Proofs.Yaml.Printing
import SourcePreview.Proofs.Yaml.Scanning

/-!
# The tokens of printed records

Every field of a printed record is cut into a key, its value and nothing else, however the value is
written.  So a document that is a printed record is cut into the tokens of its fields.
-/

namespace SourcePreview.Yaml

namespace Value

mutual

/-- The tokens of a value. -/
def tokens : Value → List Token
  | .word spelling => [.scalar .plain spelling]
  | .text value => [.scalar (styleOf value) value]
  | .record members => .blockMappingStart :: (membersTokens members ++ [.blockEnd])

/-- The tokens of the fields of a record. -/
def membersTokens : List (String × Value) → List Token
  | [] => []
  | (name, value) :: members =>
    .key :: .scalar .plain name :: .value :: (tokens value ++ membersTokens members)

end

theorem spaces_append_inj
    {first second : Nat} {rest other : List Char} (endsGap : EndsGap rest)
    (otherEnds : EndsGap other) (same : spaces first ++ rest = spaces second ++ other) :
    first = second ∧ rest = other := by
  induction first generalizing second with
  | zero =>
      cases second with
      | zero => exact ⟨rfl, same⟩
      | succ second =>
          obtain rfl : rest = ' ' :: (spaces second ++ other) := same
          cases endsGap_cons_iff.mp endsGap
  | succ first ih =>
      cases second with
      | zero =>
          obtain rfl : other = ' ' :: (spaces first ++ rest) := same.symm
          cases endsGap_cons_iff.mp otherEnds
      | succ second =>
          obtain ⟨rfl, isRest⟩ := ih (List.cons.inj same).2
          exact ⟨rfl, isRest⟩

/-! ## Texts -/

/-- What comes after the first character of a text without quotes does not make an indicator of
it. -/
theorem opensPlain_of_allowsPlain
    {first : Char} {more : List Char} (allowed : allowsPlain (first :: more) = true)
    (rest : List Char) :
    Scanner.OpensPlain first (more ++ rest) := by
  have plain := isPlain_of_allowsPlain allowed
  simp only [allowsPlain, hasIndicator, startsIndicator, Bool.and_eq_true, Bool.not_eq_true',
    Bool.or_eq_false_iff] at allowed
  obtain ⟨_, ⟨⟨_, noIndicator, noHyphen⟩, noColon⟩, _⟩ := allowed
  by_cases isIndicator : first = '-' ∨ first = '?' ∨ first = ':'
  · refine Or.inr ⟨isIndicator, startsGap_append ?_ rest⟩
    rcases isIndicator with rfl | rfl | rfl
    · exact noHyphen
    · exact noHyphen
    · rw [hasKeyColon, Bool.or_eq_false_iff] at noColon
      exact noColon.1
  · refine Or.inl ⟨(plain.starts first rfl).1, ?_⟩
    rw [String.contains_char_eq, decide_eq_false_iff_not] at noIndicator ⊢
    simp only [not_or] at isIndicator
    simp at noIndicator
    simp [noIndicator, isIndicator]

/-- A text is cut into one token, however it is written. -/
theorem cuts_text (level : Nat) (text : String) :
    Scanner.Cuts level (' ' :: printText (level + 2) text) [.scalar (styleOf text) text] := by
  have double :
      Scanner.Cuts level (' ' :: (doubleQuoted text.toList ++ ['\n']))
        [.scalar .doubleQuoted text] := by
    apply Scanner.cuts_quoted ⟨rfl, by decide, by decide⟩
      fun scanner more column stands inside => Scanner.takeToken?_doubleQuoted stands inside
    intro cursor more column stands
    have reads := read?_doubleQuoted stands
    rwa [String.ofList_toList] at reads
  rw [printText]
  fun_cases styleOf text
  case case1 characters hasLineFeed allowed =>
    have notEmpty : characters ≠ [] := by
      intro empty
      rw [empty] at hasLineFeed
      cases hasLineFeed
    rw [allowsBlock, Bool.and_eq_true, Bool.not_eq_true'] at allowed
    have printable := arePrintable_of_not_needsEscapes allowed.1
    have cuts : Scanner.Cuts level _ _ := Scanner.cuts_literal printable notEmpty
    rwa [String.ofList_toList] at cuts
  case case2 => exact double
  case case3 characters _ allowed =>
    rw [Bool.and_eq_true, Bool.not_eq_true'] at allowed
    obtain ⟨notAmbiguous, allowsPlain⟩ := allowed
    cases split : text.toList with
    | nil => simp [isAmbiguous, split] at notAmbiguous
    | cons first more =>
        have isText : String.ofList (first :: more) = text := by
          rw [← split, String.ofList_toList]
        have allowed : Value.allowsPlain (first :: more) = true := by
          rw [← split]
          exact allowsPlain
        have cuts : Scanner.Cuts level _ _ :=
          Scanner.cuts_plain (isPlain_of_allowsPlain allowed) (opensPlain_of_allowsPlain allowed)
        rwa [isText] at cuts
  case case4 characters noLineFeed _ allowed =>
    have noLineFeed : '\n' ∉ text.toList := by simpa [characters] using noLineFeed
    apply Scanner.cuts_quoted ⟨rfl, by decide, by decide⟩
      fun scanner more column stands inside => Scanner.takeToken?_singleQuoted stands inside
    intro cursor more column stands
    have quotable := isSingleQuotable_of_allowsSingleQuotes allowed noLineFeed
    have noQuote : ('\n' :: more).head? ≠ some '\'' := by simp
    have reads := read?_singleQuoted (level + 1) quotable noQuote stands
    rwa [String.ofList_toList] at reads
  case case5 => exact double

theorem cuts_word {spelling : String} (isWord : IsWord spelling.toList) (level : Nat) :
    Scanner.Cuts level (' ' :: spelling.toList ++ ['\n']) [.scalar .plain spelling] := by
  obtain ⟨first, more, split⟩ := List.exists_cons_of_ne_nil isWord.notEmpty
  have isText : String.ofList (first :: more) = spelling := by rw [← split, String.ofList_toList]
  rw [split] at isWord ⊢
  have cuts : Scanner.Cuts level _ _ :=
    Scanner.cuts_plain isWord.isPlain fun rest =>
      Scanner.opensPlain_of_isWordChar (isWord.isWordChar first List.mem_cons_self) (more ++ rest)
  rwa [isText] at cuts

/-! ## Records -/

section

variable
    {level : Nat} {document written : List Char} {found tokens opened : List Token}
    {blocks outer : List Nat} {result : Option (List Token)} {name : String}
    {members : List (String × Value)}

theorem startsToken_of_isWord
    {word : List Char} (isWord : IsWord word) (rest : List Char) : StartsToken (word ++ rest) := by
  obtain ⟨first, more, rfl⟩ := List.exists_cons_of_ne_nil isWord.notEmpty
  have isFirst := isWord.isWordChar first List.mem_cons_self
  rintro _ ⟨⟩
  exact
    ⟨isGap_eq_false_of_isWordChar isFirst, ne_of_isWordChar isFirst rfl,
      ne_of_isWordChar isFirst rfl⟩

/-- A field is cut into its key and its value, and the fields after it follow. -/
theorem proceed_field
    {cursor : Cursor} {rounds : Nat}
    (isWord : IsWord name.toList) (short : name.toList.length ≤ Scanner.longestKey)
    (cuts : Scanner.Cuts level written found) (starts : startsGap (written ++ document) = true)
    (block :
      blocks = level :: outer ∧ opened = tokens ∨
        blocks = outer ∧ (∀ block ∈ outer.head?, block < level) ∧
          opened = .blockMappingStart :: tokens)
    (isLine : Scanner.IsLine level document)
    (leads :
      Scanner.LeadsTo document
        (found.reverse ++ .value :: .scalar .plain name :: .key :: opened) (level :: outer) result)
    (stands : cursor.StandsAt (name.toList ++ ':' :: (written ++ document)) level)
    (enough : (name.toList ++ ':' :: (written ++ document)).length ≤ rounds) :
    Scanner.proceed rounds ⟨cursor, tokens, blocks, [none], true⟩ = result := by
  have positive := List.length_pos_of_ne_nil isWord.notEmpty
  rw [List.length_append, List.length_cons] at enough
  obtain ⟨rounds, rfl⟩ := Nat.exists_eq_add_one_of_ne_zero (show rounds ≠ 0 by omega)
  rw [Scanner.proceed_name isWord short block stands starts, String.ofList_toList]
  exact
    cuts document _ outer result isLine leads rounds _ _ (stands.skip _).skip_one (by omega)
      (by omega)

/-- At the end of a record its block is closed. -/
theorem leadsTo_blockEnd
    {inner : Nat} (deeper : level < inner) (isLine : Scanner.IsLine level document)
    (leads : Scanner.LeadsTo document (.blockEnd :: tokens) (level :: outer) result) :
    Scanner.LeadsTo document tokens (inner :: level :: outer) result := by
  obtain ⟨count, others, isDocument, within, starts⟩ := isLine
  intro rounds cursor column rest split restStarts stands enough
  obtain ⟨rfl, rfl⟩ :=
    spaces_append_inj starts.endsGap restStarts.endsGap (isDocument.symm.trans split)
  have outside : cursor.column < inner := by
    rw [stands.column]
    exact Nat.lt_of_le_of_lt within deeper
  rw [Scanner.closeDeeperBlocks_cons_of_lt outside]
  exact leads rounds cursor count others isDocument starts stands enough

theorem isLine_of_le
    {inner : Nat} (deeper : level ≤ inner) (isLine : Scanner.IsLine level document) :
    Scanner.IsLine inner document := by
  obtain ⟨column, rest, isDocument, within, starts⟩ := isLine
  exact ⟨column, rest, isDocument, Nat.le_trans within deeper, starts⟩

theorem printMembers_cons (value : Value) :
    printMembers level ((name, value) :: members) ++ document =
      spaces level ++
        (name.toList ++
          ':' :: (print level value ++ (printMembers level members ++ document))) := by
  rw [printMembers]
  simp

theorem isLine_printMembers
    (writable : AreWritable members) (isLine : Scanner.IsLine level document) :
    Scanner.IsLine level (printMembers level members ++ document) := by
  cases members with
  | nil => simpa [printMembers] using isLine
  | cons member members =>
      obtain ⟨name, value⟩ := member
      rw [AreWritable] at writable
      exact
        ⟨level, _, printMembers_cons value, Nat.le_refl level, startsToken_of_isWord writable.1 _⟩

theorem startsGap_print (level : Nat) (value : Value) (rest : List Char) :
    startsGap (print level value ++ rest) = true := by
  cases value <;> rw [print] <;> rfl

/-- Whether the fields of a record are cut into their tokens where their block is open. -/
def CutsMembers (level : Nat) (members : List (String × Value)) : Prop :=
  ∀ document tokens outer result,
    Scanner.IsLine level document →
      Scanner.LeadsTo document ((membersTokens members).reverse ++ tokens) (level :: outer) result →
        Scanner.LeadsTo (printMembers level members ++ document) tokens (level :: outer) result

variable {value : Value}

theorem cutsMembers_cons
    (isWord : IsWord name.toList) (short : name.toList.length ≤ Scanner.longestKey)
    (writable : AreWritable members) (cuts : Scanner.Cuts level (print level value) value.tokens)
    (cutsRest : CutsMembers level members) :
    CutsMembers level ((name, value) :: members) := by
  intro document tokens outer result isLine leads rounds cursor column rest split starts stands
    enough
  have leadsRest :=
    cutsRest document (value.tokens.reverse ++ .value :: .scalar .plain name :: .key :: tokens)
      outer result isLine (by simpa [membersTokens] using leads)
  rw [printMembers_cons] at split
  obtain ⟨rfl, rfl⟩ :=
    spaces_append_inj (startsToken_of_isWord isWord _).endsGap starts.endsGap split
  have noneClosed : ∀ block ∈ (level :: outer).head?, block ≤ cursor.column := by
    rintro _ ⟨⟩
    exact Nat.le_of_eq stands.column.symm
  rw [Scanner.closeDeeperBlocks_of_le none noneClosed]
  exact
    proceed_field isWord short cuts (startsGap_print _ _ _) (Or.inl ⟨rfl, rfl⟩)
      (isLine_printMembers writable isLine) leadsRest stands enough

/-- A record is cut into the tokens of its fields between the beginning and the end of its
block. -/
theorem cuts_record
    (isWord : IsWord name.toList) (short : name.toList.length ≤ Scanner.longestKey)
    (writable : AreWritable members)
    (cuts : Scanner.Cuts (level + 2) (print (level + 2) value) value.tokens)
    (cutsRest : CutsMembers (level + 2) members) :
    Scanner.Cuts level ('\n' :: printMembers (level + 2) ((name, value) :: members))
      (.blockMappingStart :: (membersTokens ((name, value) :: members) ++ [.blockEnd])) := by
  intro document tokens blocks result isLine leads rounds cursor column stands inside enough
  obtain ⟨rounds, rfl⟩ :=
    Nat.exists_eq_add_one_of_ne_zero (Nat.ne_of_gt (Nat.zero_lt_of_lt enough))
  have deeper : level < level + 2 := Nat.lt_add_of_pos_right Nat.two_pos
  have isInnerLine := isLine_of_le (Nat.le_of_lt deeper) isLine
  have leadsRest :=
    cutsRest document
      (value.tokens.reverse ++
        .value :: .scalar .plain name :: .key :: .blockMappingStart :: tokens)
      (level :: blocks) result isInnerLine
      (leadsTo_blockEnd deeper isLine (by simpa [membersTokens] using leads))
  rw [List.cons_append, printMembers_cons] at stands enough
  obtain ⟨stop, reads, stops⟩ :=
    Scanner.takeTokens_line stands (startsToken_of_isWord isWord _)
  have noneClosed : ∀ block ∈ (level :: blocks).head?, block ≤ stop.column := by
    rintro _ ⟨⟩
    rw [stops.column]
    exact Nat.le_of_lt deeper
  rw [reads, Scanner.closeDeeperBlocks_of_le none noneClosed]
  have opens : ∀ block ∈ (level :: blocks).head?, block < level + 2 := by
    rintro _ ⟨⟩
    exact deeper
  rw [List.length_cons, List.length_append] at enough
  exact
    proceed_field isWord short cuts (startsGap_print _ _ _) (Or.inr ⟨rfl, opens, rfl⟩)
      (isLine_printMembers writable isInnerLine) leadsRest stops (by omega)

end

mutual

/-- A value is cut into its tokens. -/
theorem cuts_print (value : Value) (writable : value.IsWritable) (level : Nat) :
    Scanner.Cuts level (print level value) value.tokens := by
  match value with
  | .word spelling =>
      rw [IsWritable] at writable
      rw [print, Value.tokens]
      exact cuts_word writable level
  | .text value =>
      rw [print, Value.tokens]
      exact cuts_text level value
  | .record [] =>
      rw [IsWritable] at writable
      exact absurd rfl writable.1
  | .record ((name, value) :: members) =>
      rw [IsWritable, AreWritable] at writable
      obtain ⟨_, isWord, short, writableValue, writableRest⟩ := writable
      rw [print, Value.tokens]
      exact
        cuts_record isWord short writableRest (cuts_print value writableValue (level + 2))
          (cutsMembers members writableRest (level + 2))

/-- The fields of a record are cut into their tokens, one after the other. -/
theorem cutsMembers
    (members : List (String × Value)) (writable : AreWritable members) (level : Nat) :
    CutsMembers level members := by
  match members with
  | [] =>
      intro document tokens outer result isLine leads
      simpa [printMembers, membersTokens] using leads
  | (name, value) :: members =>
      rw [AreWritable] at writable
      obtain ⟨isWord, short, writableValue, writableRest⟩ := writable
      exact
        cutsMembers_cons isWord short writableRest (cuts_print value writableValue level)
          (cutsMembers members writableRest level)

end

/-- At the end of a document its block is closed. -/
theorem leadsTo_nil (tokens : List Token) :
    Scanner.LeadsTo [] tokens [0] (some (.blockEnd :: tokens).reverse) := by
  intro rounds cursor column rest split starts stands enough
  have noneClosed : ∀ block ∈ [0].head?, block ≤ cursor.column := by
    rintro _ ⟨⟩
    exact Nat.zero_le _
  have atEnd : rest = [] := (List.append_eq_nil_iff.mp split.symm).2
  rw [Scanner.closeDeeperBlocks_of_le none noneClosed, Scanner.proceed,
    if_pos (by rw [stands.rest, atEnd]; rfl)]
  rfl

/-- A printed record is cut into its tokens. -/
theorem takeTokens_printMembers
    {members : List (String × Value)} (notEmpty : members ≠ []) (writable : AreWritable members) :
    Scanner.takeTokens ((printMembers 0 members).length + 1)
        (Scanner.ofText (printMembers 0 members)) =
      some (record members).tokens := by
  cases members with
  | nil => exact absurd rfl notEmpty
  | cons member members =>
      obtain ⟨name, value⟩ := member
      rw [AreWritable] at writable
      obtain ⟨isWord, short, writableValue, writableRest⟩ := writable
      have split : printMembers 0 ((name, value) :: members) =
          name.toList ++ ':' :: (print 0 value ++ (printMembers 0 members ++ [])) := by
        rw [← List.append_nil (printMembers 0 _), printMembers_cons]
        rfl
      have stands : (Cursor.ofText (printMembers 0 ((name, value) :: members))).StandsAt _ 0 :=
        ⟨split, rfl⟩
      have noSpaces : (Cursor.ofText _).StandsAt (spaces 0 ++ _) 0 := stands
      have isEnd : Scanner.IsLine 0 [] :=
        ⟨0, [], rfl, Nat.le_refl 0, fun _ member => nomatch member⟩
      have leads :=
        cutsMembers members writableRest 0 [] _ [] _ isEnd
          (leadsTo_nil
            ((membersTokens members).reverse ++
              (value.tokens.reverse ++
                [.value, .scalar .plain name, .key, .blockMappingStart])))
      have noBlock : ∀ block ∈ ([] : List Nat).head?, block < 0 := fun _ member => nomatch member
      rw [Scanner.ofText, Scanner.takeTokens_spaces noSpaces (startsToken_of_isWord isWord _),
        Scanner.closeDeeperBlocks_of_le none (by rintro _ ⟨⟩), Cursor.skip_zero,
        proceed_field isWord short (cuts_print value writableValue 0) (startsGap_print _ _ _)
          (Or.inr ⟨rfl, noBlock, rfl⟩) (isLine_printMembers writableRest isEnd) leads stands
          (Nat.le_of_eq (congrArg List.length split).symm),
        Value.tokens, membersTokens]
      simp

end Value

/-- A document that starts with no byte order mark is cut as it is. -/
theorem tokens?_eq_takeTokens
    {text : List Char} (allowed : text.all isAllowed = true)
    (noMark : text.head? ≠ some '\ufeff') :
    tokens? (String.ofList text) =
      Scanner.takeTokens (text.length + 1) (Scanner.ofText text) := by
  rw [tokens?, String.toList_ofList]
  split
  · exact absurd rfl noMark
  · exact if_pos allowed

/-- The document that is printed for a record is cut into the tokens of the record. -/
theorem tokens?_printRecord
    {members : List (String × Value)} (notEmpty : members ≠ [])
    (writable : Value.AreWritable members) :
    tokens? (printRecord members) = some (Value.record members).tokens := by
  have printable := Value.arePrintable_printMembers members writable 0
  have noMark : (Value.printMembers 0 members).head? ≠ some '\ufeff' := by
    intro isMark
    cases printable '\ufeff' (List.mem_of_mem_head? isMark)
  have allowed : (Value.printMembers 0 members).all isAllowed = true :=
    List.all_eq_true.mpr fun character member =>
      isAllowed_of_isPrintable (printable character member)
  rw [printRecord, tokens?_eq_takeTokens allowed noMark]
  exact Value.takeTokens_printMembers notEmpty writable

end SourcePreview.Yaml
