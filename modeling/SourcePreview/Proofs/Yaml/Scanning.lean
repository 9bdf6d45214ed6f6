import SourcePreview.Proofs.Yaml.Block
import SourcePreview.Proofs.Yaml.Plain
import SourcePreview.Proofs.Yaml.Quoted
import SourcePreview.Yaml.Scan

/-!
# Cutting printed YAML documents into tokens

A printed document is cut line by line.  At the beginning of a line no key is pending and a key may
begin, and the blocks to the right of the line are closed.  So what a line is cut into depends only
on the columns of the blocks that are open around it.
-/

namespace SourcePreview.Yaml

/-- Whether a token or the end of the document comes next. -/
def StartsToken (rest : List Char) : Prop :=
  ∀ character ∈ rest.head?, isGap character = false ∧ character ≠ '#' ∧ character ≠ '\ufeff'

theorem StartsToken.endsGap {rest : List Char} (starts : StartsToken rest) : EndsGap rest :=
  fun character member => (starts character member).1

namespace Scanner

variable
    {cursor : Cursor} {tokens : List Token} {blocks : List Nat} {keyAllowed : Bool}
    {rest : List Char} {column count rounds : Nat}

/-! ## Between tokens -/

theorem ite_skip_eq_self (noMark : cursor.isAt '\ufeff' = false) :
    (if cursor.index = 0 ∧ cursor.isAt '\ufeff' then cursor.skip 1 else cursor) = cursor := by
  rw [noMark]
  exact if_neg fun both => Bool.false_ne_true both.2

/-- Spaces in front of a token are skipped. -/
theorem skipGap_spaces
    {scanner : Scanner} (stands : scanner.cursor.StandsAt (Value.spaces count ++ rest) column)
    (starts : StartsToken rest) :
    skipGap (rounds + 1) scanner = { scanner with cursor := scanner.cursor.skip count } := by
  have noMark : scanner.cursor.isAt '\ufeff' = false := by
    rw [Cursor.isAt, stands.rest, beq_eq_false_iff_ne]
    cases count with
    | zero => exact fun isMark => (starts '\ufeff' isMark).2.2 rfl
    | succ count => exact fun isMark => absurd (Option.some.inj isMark) (by decide)
  have atToken := stands.skip (Value.spaces count)
  rw [Value.length_spaces] at atToken
  have taken :
      (scanner.cursor.skipWhile fun character =>
        character == ' ' || ((scanner.inFlow || !scanner.keyAllowed) && character == '\t')) =
        scanner.cursor.skip count := by
    rw [Cursor.skipWhile, stands.takeWhile_append, Value.length_spaces]
    · intro character member
      rw [List.eq_of_mem_replicate member]
      rfl
    · intro character member
      have noBlank := (isGap_eq_false_iff.mp (starts character member).1).1
      rw [isBlank, Bool.or_eq_false_iff] at noBlank
      rw [noBlank.1, noBlank.2, Bool.and_false]
      rfl
  have noComment : (scanner.cursor.skip count).isAt '#' = false := by
    rw [Cursor.isAt, atToken.rest, beq_eq_false_iff_ne]
    exact fun isHash => (starts '#' isHash).2.1 rfl
  rw [skipGap, ite_skip_eq_self noMark, taken, noComment,
    if_neg Bool.false_ne_true, atToken.lineBreak?_of_endsGap starts.endsGap]

/-- The end of a line and the spaces in front of the token of the next one are skipped, and a key
may begin there. -/
theorem skipGap_line
    (rounds : Nat) (scanner : Scanner)
    (stands : scanner.cursor.StandsAt ('\n' :: (Value.spaces count ++ rest)) column)
    (outside : scanner.inFlow = false) (starts : StartsToken rest) :
    ∃ stop,
      skipGap (rounds + 2) scanner = { scanner with cursor := stop, keyAllowed := true } ∧
        stop.StandsAt rest count := by
  obtain ⟨next, breaksHere, isNext⟩ :=
    stands.lineBreak?_of_isPrintedBreak (isPrintedBreak_lineFeed '\n' List.mem_cons_self)
  have stops := isNext.skip (Value.spaces count)
  rw [Value.length_spaces, Nat.zero_add] at stops
  refine ⟨next.skip count, ?_, stops⟩
  rw [skipGap, ite_skip_eq_self (stands.isAt_eq_false (by decide)),
    stands.skipWhile_eq_self (by simp), stands.isAt_eq_false (by decide),
    if_neg Bool.false_ne_true, breaksHere]
  dsimp only
  rw [skipGap_spaces isNext starts, outside, Bool.not_false, Bool.or_true]

/-- Reads on from a place with a token or the end of the document. -/
def proceed (rounds : Nat) (scanner : Scanner) : Option (List Token) :=
  if scanner.cursor.rest.isEmpty then
    scanner.closeAllBlocks.dropKey?.map fun scanner => scanner.tokens.reverse
  else scanner.takeToken?.bind (takeTokens rounds)

theorem takeTokens_succ (scanner : Scanner) :
    takeTokens (rounds + 1) scanner =
      (skipGap (scanner.cursor.rest.length + 1) scanner).dropStaleKeys?.bind fun scanner =>
        proceed rounds scanner.closeDeeperBlocks := by
  rw [takeTokens]
  simp only [Option.bind_eq_bind, proceed, Option.map_eq_bind]
  rfl

theorem takeTokens_spaces
    (stands : cursor.StandsAt (Value.spaces count ++ rest) column) (starts : StartsToken rest) :
    takeTokens (rounds + 1) ⟨cursor, tokens, blocks, [none], keyAllowed⟩ =
      proceed rounds
        (closeDeeperBlocks ⟨cursor.skip count, tokens, blocks, [none], keyAllowed⟩) := by
  rw [takeTokens_succ, skipGap_spaces stands starts]
  rfl

theorem takeTokens_line
    (stands : cursor.StandsAt ('\n' :: (Value.spaces count ++ rest)) column)
    (starts : StartsToken rest) :
    ∃ stop,
      takeTokens (rounds + 1) ⟨cursor, tokens, blocks, [none], keyAllowed⟩ =
          proceed rounds (closeDeeperBlocks ⟨stop, tokens, blocks, [none], true⟩) ∧
        stop.StandsAt rest count := by
  have length : cursor.rest.length = (Value.spaces count ++ rest).length + 1 := by
    rw [stands.rest]
    rfl
  obtain ⟨stop, skips, stops⟩ :=
    skipGap_line (Value.spaces count ++ rest).length
      ⟨cursor, tokens, blocks, [none], keyAllowed⟩ stands rfl starts
  refine ⟨stop, ?_, stops⟩
  rw [takeTokens_succ]
  dsimp only
  rw [length, skips]
  rfl

/-! ## Blocks -/

theorem closeBlocksFrom_congr
    (closes : Nat → Bool) (closed : List Nat) (scanner : Scanner) (blocks : List Nat) :
    closeBlocksFrom closes closed { scanner with blocks } =
      closeBlocksFrom closes closed scanner := by
  induction closed generalizing scanner with
  | nil => rfl
  | cons block closed ih =>
      rw [closeBlocksFrom, closeBlocksFrom]
      split
      · exact ih (scanner.emit .blockEnd)
      · rfl

/-- Where no key is pending the blocks are closed, for the place is in no flow collection. -/
theorem closeDeeperBlocks_eq
    (cursor : Cursor) (tokens : List Token) (blocks : List Nat) (key : Option PossibleKey)
    (keyAllowed : Bool) :
    closeDeeperBlocks ⟨cursor, tokens, blocks, [key], keyAllowed⟩ =
      closeBlocksFrom (cursor.column < ·) blocks ⟨cursor, tokens, blocks, [key], keyAllowed⟩ :=
  rfl

/-- No block is closed in front of a token inside it. -/
theorem closeDeeperBlocks_of_le
    (key : Option PossibleKey) (inside : ∀ block ∈ blocks.head?, block ≤ cursor.column) :
    closeDeeperBlocks ⟨cursor, tokens, blocks, [key], keyAllowed⟩ =
      ⟨cursor, tokens, blocks, [key], keyAllowed⟩ := by
  rw [closeDeeperBlocks_eq]
  cases blocks with
  | nil => rfl
  | cons block blocks =>
      have notClosed : ¬cursor.column < block := Nat.not_lt.mpr (inside block rfl)
      exact if_neg fun closes => notClosed (of_decide_eq_true closes)

/-- A block is closed in front of a token to the left of it. -/
theorem closeDeeperBlocks_cons_of_lt
    {block : Nat} (outside : cursor.column < block) :
    closeDeeperBlocks ⟨cursor, tokens, block :: blocks, [none], keyAllowed⟩ =
      closeDeeperBlocks ⟨cursor, .blockEnd :: tokens, blocks, [none], keyAllowed⟩ := by
  rw [closeDeeperBlocks_eq, closeDeeperBlocks_eq, closeBlocksFrom,
    if_pos (decide_eq_true outside)]
  exact
    (closeBlocksFrom_congr (cursor.column < ·) blocks
      ⟨cursor, .blockEnd :: tokens, block :: blocks, [none], keyAllowed⟩ blocks).symm

/-! ## Tokens -/

/-- Whether a plain scalar begins with some characters and is no indicator. -/
def OpensPlain (first : Char) (more : List Char) : Prop :=
  isGap first = false ∧ "-?:,[]\x7b\x7d#&*!|>'\"%@`".contains first = false ∨
    (first = '-' ∨ first = '?' ∨ first = ':') ∧ startsGap more = false

section

variable {scanner : Scanner} {first : Char} {more : List Char}

theorem gapAt_one (stands : cursor.StandsAt (first :: more) column) :
    cursor.gapAt 1 = startsGap more := by
  rw [Cursor.gapAt, stands.rest]
  rfl

theorem takeToken?_plain
    (stands : scanner.cursor.StandsAt (first :: more) column) (outside : scanner.inFlow = false)
    (notMark : scanner.cursor.isAtDocumentMark = false) (opens : OpensPlain first more) :
    scanner.takeToken? = scanner.takePlain? := by
  rcases opens with ⟨noGap, noIndicator⟩ | ⟨isIndicator, noGapNext⟩
  · rw [String.contains_char_eq, decide_eq_false_iff_not] at noIndicator
    simp at noIndicator
    simp [takeToken?, notMark, outside, gapAt_one stands, Cursor.isAt, stands.rest, noIndicator,
      startsPlain, noGap]
  · have noBlankNext : more.head?.any isBlank = false := by
      cases more with
      | nil => rfl
      | cons second more => exact (isGap_eq_false_iff.mp noGapNext).1
    rcases isIndicator with rfl | rfl | rfl
    all_goals
      simp [takeToken?, notMark, outside, gapAt_one stands, Cursor.isAt, stands.rest, noGapNext,
        startsPlain, noBlankNext]

theorem takeToken?_colon
    (stands : scanner.cursor.StandsAt (':' :: more) column) (inside : 0 < column)
    (starts : startsGap more = true) :
    scanner.takeToken? = scanner.takeColon? := by
  have notMark := stands.isAtDocumentMark_eq_false inside
  simp [takeToken?, notMark, gapAt_one stands, Cursor.isAt, stands.rest, starts]

theorem takeToken?_literal
    (stands : scanner.cursor.StandsAt ('|' :: more) column) (inside : 0 < column)
    (outside : scanner.inFlow = false) :
    scanner.takeToken? = scanner.takeBlockScalar? .literal := by
  have notMark := stands.isAtDocumentMark_eq_false inside
  simp [takeToken?, notMark, outside, Cursor.isAt, stands.rest]

theorem takeToken?_singleQuoted
    (stands : scanner.cursor.StandsAt ('\'' :: more) column) (inside : 0 < column) :
    scanner.takeToken? = scanner.takeQuoted? .singleQuoted '\'' := by
  have notMark := stands.isAtDocumentMark_eq_false inside
  simp [takeToken?, notMark, Cursor.isAt, stands.rest]

theorem takeToken?_doubleQuoted
    (stands : scanner.cursor.StandsAt ('"' :: more) column) (inside : 0 < column) :
    scanner.takeToken? = scanner.takeQuoted? .doubleQuoted '"' := by
  have notMark := stands.isAtDocumentMark_eq_false inside
  simp [takeToken?, notMark, Cursor.isAt, stands.rest]

end

/-! ## Lines -/

/-- Whether a document goes on with a line that is not indented further than a level. -/
def IsLine (level : Nat) (document : List Char) : Prop :=
  ∃ column rest, document = Value.spaces column ++ rest ∧ column ≤ level ∧ StartsToken rest

/-- Whether reading on at the beginning of a line leads to a result, after some tokens and in some
blocks.  What else comes before the line does not matter. -/
def LeadsTo
    (document : List Char) (tokens : List Token) (blocks : List Nat)
    (result : Option (List Token)) : Prop :=
  ∀ rounds cursor column rest,
    document = Value.spaces column ++ rest → StartsToken rest → cursor.StandsAt rest column →
      rest.length ≤ rounds →
        proceed rounds (closeDeeperBlocks ⟨cursor, tokens, blocks, [none], true⟩) = result

section

variable {document : List Char} {result : Option (List Token)} {level : Nat}

theorem LeadsTo.takeTokens
    (leads : LeadsTo document tokens blocks result)
    (isDocument : document = Value.spaces column ++ rest) (starts : StartsToken rest)
    (stands : cursor.StandsAt rest column) (enough : rest.length < rounds) :
    takeTokens rounds ⟨cursor, tokens, blocks, [none], true⟩ = result := by
  obtain ⟨rounds, rfl⟩ :=
    Nat.exists_eq_add_one_of_ne_zero (Nat.ne_of_gt (Nat.zero_lt_of_lt enough))
  have noSpaces : cursor.StandsAt (Value.spaces 0 ++ rest) column := stands
  rw [takeTokens_spaces noSpaces starts]
  exact leads rounds cursor column rest isDocument starts stands (Nat.le_of_lt_succ enough)

theorem LeadsTo.takeTokens_line
    (leads : LeadsTo document tokens blocks result) (isLine : IsLine level document)
    (stands : cursor.StandsAt ('\n' :: document) column) (enough : document.length < rounds) :
    Scanner.takeTokens rounds ⟨cursor, tokens, blocks, [none], keyAllowed⟩ = result := by
  obtain ⟨rounds, rfl⟩ :=
    Nat.exists_eq_add_one_of_ne_zero (Nat.ne_of_gt (Nat.zero_lt_of_lt enough))
  obtain ⟨count, rest, rfl, _, starts⟩ := isLine
  obtain ⟨stop, reads, stops⟩ := Scanner.takeTokens_line stands starts
  rw [reads]
  rw [List.length_append] at enough
  exact leads rounds stop count rest rfl starts stops (by omega)

/-! ## Values -/

/-- Whether what is printed after the colon of a field at a level is cut into some tokens. -/
def Cuts (level : Nat) (written : List Char) (found : List Token) : Prop :=
  ∀ document tokens blocks result,
    IsLine level document →
      LeadsTo document (found.reverse ++ tokens) (level :: blocks) result →
        ∀ rounds cursor column,
          cursor.StandsAt (written ++ document) column → level < column →
            (written ++ document).length < rounds →
              takeTokens rounds ⟨cursor, tokens, level :: blocks, [none], false⟩ = result

/-- The token after the space behind a colon is taken. -/
theorem takeTokens_space
    {first : Char}
    (stands : cursor.StandsAt (' ' :: first :: rest) column)
    (starts : StartsToken (first :: rest)) (inside : level < column) :
    takeTokens (rounds + 1) ⟨cursor, tokens, level :: blocks, [none], keyAllowed⟩ =
      (takeToken? ⟨cursor.skip 1, tokens, level :: blocks, [none], keyAllowed⟩).bind
        (takeTokens rounds) := by
  have oneSpace : cursor.StandsAt (Value.spaces 1 ++ first :: rest) column := stands
  have noneClosed : ∀ block ∈ (level :: blocks).head?, block ≤ (cursor.skip 1).column := by
    rintro _ ⟨⟩
    rw [stands.skip_one.column]
    exact Nat.le_of_lt (Nat.lt_succ_of_lt inside)
  rw [takeTokens_spaces oneSpace starts, closeDeeperBlocks_of_le none noneClosed, proceed,
    stands.skip_one.rest]
  rfl

/-- A scalar without quotes is cut into one token. -/
theorem cuts_plain
    {first : Char} {more : List Char} (plain : Value.IsPlain (first :: more))
    (opens : ∀ rest, OpensPlain first (more ++ rest)) :
    Cuts level (' ' :: (first :: more) ++ ['\n'])
      [.scalar .plain (String.ofList (first :: more))] := by
  intro document tokens blocks result isLine leads rounds cursor column stands inside enough
  obtain ⟨count, rest, rfl, within, starts⟩ := isLine
  obtain ⟨rounds, rfl⟩ :=
    Nat.exists_eq_add_one_of_ne_zero (Nat.ne_of_gt (Nat.zero_lt_of_lt enough))
  rw [List.append_assoc] at stands
  have noMark : first ≠ '\ufeff' := by
    rintro rfl
    cases plain.printable _ List.mem_cons_self
  have startsText : StartsToken (first :: more ++ '\n' :: (Value.spaces count ++ rest)) := by
    rintro _ ⟨⟩
    exact ⟨(plain.starts first rfl).1, (plain.starts first rfl).2, noMark⟩
  rw [takeTokens_space stands startsText inside]
  have atText := stands.skip_one
  have notMark := atText.isAtDocumentMark_eq_false (Nat.succ_pos column)
  have indented : level + 1 ≤ column + 1 := Nat.succ_le_succ (Nat.le_of_lt inside)
  obtain ⟨stop, reads, stops⟩ :=
    Plain.read?_of_isPlain plain (List.cons_ne_nil _ _) atText (Nat.succ_pos column) indented
      (Nat.lt_succ_of_le within) starts.endsGap
  have takes :
      takeToken? ⟨cursor.skip 1, tokens, level :: blocks, [none], false⟩ =
        some
          ⟨stop, .scalar .plain (String.ofList (first :: more)) :: tokens, level :: blocks, [none],
            true⟩ := by
    rw [takeToken?_plain atText rfl notMark (opens _), takePlain?]
    simp [noteKey?, inFlow, reads, emit, allowKey]
  rw [takes]
  apply leads.takeTokens rfl starts stops
  simp only [List.length_append, List.length_cons] at enough
  omega

/-- A scalar between quotes is cut into one token. -/
theorem cuts_quoted
    {style : ScalarStyle} {quote : Char} {form : List Char} {text : String}
    (isQuote : isGap quote = false ∧ quote ≠ '#' ∧ quote ≠ '\ufeff')
    (takes : ∀ (scanner : Scanner) more column,
      scanner.cursor.StandsAt (quote :: more) column → 0 < column →
        scanner.takeToken? = scanner.takeQuoted? style quote)
    (reads : ∀ cursor more column,
      Cursor.StandsAt cursor (quote :: form ++ '\n' :: more) column →
        ∃ stop endColumn,
          Quoted.read? quote cursor = some (text, stop) ∧ stop.StandsAt ('\n' :: more) endColumn) :
    Cuts level (' ' :: (quote :: form) ++ ['\n']) [.scalar style text] := by
  intro document tokens blocks result isLine leads rounds cursor column stands inside enough
  obtain ⟨rounds, rfl⟩ :=
    Nat.exists_eq_add_one_of_ne_zero (Nat.ne_of_gt (Nat.zero_lt_of_lt enough))
  rw [List.append_assoc] at stands
  have startsQuote : StartsToken (quote :: form ++ '\n' :: document) := by
    rintro _ ⟨⟩
    exact isQuote
  rw [takeTokens_space stands startsQuote inside]
  obtain ⟨stop, endColumn, readsText, stops⟩ := reads _ _ _ stands.skip_one
  have takesToken :
      takeToken? ⟨cursor.skip 1, tokens, level :: blocks, [none], false⟩ =
        some ⟨stop, .scalar style text :: tokens, level :: blocks, [none], false⟩ := by
    rw [takes _ _ _ stands.skip_one (Nat.succ_pos column), takeQuoted?, takeProperty?]
    simp [noteKey?, readsText, emit, allowKey]
  rw [takesToken]
  apply leads.takeTokens_line isLine stops
  simp only [List.length_append, List.length_cons] at enough
  omega

/-- A literal scalar is cut into one token. -/
theorem cuts_literal
    {text : List Char} (printable : Value.ArePrintable text)
    (notEmpty : text ≠ []) :
    Cuts level (' ' :: Value.literalBlock (level + 2) text)
      [.scalar .literal (String.ofList text)] := by
  intro document tokens blocks result isLine leads rounds cursor column stands inside enough
  obtain ⟨count, rest, rfl, within, starts⟩ := isLine
  obtain ⟨rounds, rfl⟩ :=
    Nat.exists_eq_add_one_of_ne_zero (Nat.ne_of_gt (Nat.zero_lt_of_lt enough))
  have startsBlock :
      StartsToken (Value.literalBlock (level + 2) text ++ (Value.spaces count ++ rest)) := by
    rintro _ ⟨⟩
    exact ⟨rfl, by decide, by decide⟩
  have atBlock := stands.skip_one
  rw [takeTokens_space stands startsBlock inside]
  obtain ⟨stop, reads, stops⟩ :=
    Block.read?_literalBlock printable notEmpty atBlock within starts.endsGap
  have takes :
      takeToken? ⟨cursor.skip 1, tokens, level :: blocks, [none], false⟩ =
        some
          ⟨stop, .scalar .literal (String.ofList text) :: tokens, level :: blocks, [none],
            true⟩ := by
    rw [takeToken?_literal atBlock (Nat.succ_pos column) rfl, takeBlockScalar?]
    have notFolded : (ScalarStyle.literal == ScalarStyle.folded) = false := rfl
    simp [dropKey?, notFolded, reads, emit, allowKey]
  rw [takes]
  apply leads.takeTokens rfl starts stops
  simp only [Value.literalBlock, List.length_append, List.length_cons] at enough
  omega

/-! ## Names of fields -/

/-- A word is no indicator. -/
theorem opensPlain_of_isWordChar
    {first : Char} (isWordChar : Value.isWordChar first = true) (more : List Char) :
    OpensPlain first more := by
  left
  refine ⟨Value.isGap_eq_false_of_isWordChar isWordChar, ?_⟩
  rw [String.contains_char_eq, decide_eq_false_iff_not]
  intro member
  have noWordChar :
      "-?:,[]\x7b\x7d#&*!|>'\"%@`".toList.all (fun other => !Value.isWordChar other) = true := by
    decide +kernel
  have notHere := List.all_eq_true.mp noWordChar first member
  simp [isWordChar] at notHere

theorem isAtDocumentMark_eq_false_of_isWordChar
    {first : Char} (stands : cursor.StandsAt (first :: rest) column)
    (isWordChar : Value.isWordChar first = true) :
    cursor.isAtDocumentMark = false := by
  have noHyphen : first ≠ '-' := Value.ne_of_isWordChar isWordChar rfl
  have noDot : first ≠ '.' := Value.ne_of_isWordChar isWordChar rfl
  simp [Cursor.isAtDocumentMark, stands.rest, noHyphen, noDot]

/-- The name of a field is taken as a scalar that may turn out to be a key. -/
theorem takeToken?_name
    {name more : List Char} (tokens : List Token) (blocks : List Nat) (isWord : Value.IsWord name)
    (stands : cursor.StandsAt (name ++ ':' :: more) column) (starts : startsGap more = true) :
    ∃ required,
      takeToken? ⟨cursor, tokens, blocks, [none], true⟩ =
        some
          ⟨cursor.skip name.length, .scalar .plain (String.ofList name) :: tokens, blocks,
            [some ⟨required, tokens.length, cursor⟩], false⟩ := by
  obtain ⟨first, others, rfl⟩ := List.exists_cons_of_ne_nil isWord.notEmpty
  have isFirst := isWord.isWordChar first List.mem_cons_self
  have notMark := isAtDocumentMark_eq_false_of_isWordChar stands isFirst
  have isName : ∀ character ∈ first :: others,
      isGap character = false ∧ character ≠ ':' ∧ character ≠ '#' := by
    intro character member
    have here := isWord.isWordChar character member
    exact
      ⟨Value.isGap_eq_false_of_isWordChar here, Value.ne_of_isWordChar here rfl,
        Value.ne_of_isWordChar here rfl⟩
  have reads (least : Nat) := Plain.read?_name least stands notMark isName isWord.notEmpty starts
  refine ⟨blocks.head? == some cursor.column, ?_⟩
  rw [takeToken?_plain stands rfl notMark (opensPlain_of_isWordChar isFirst _), takePlain?]
  simp [noteKey?, dropKey?, inFlow, reads, emit, allowKey]

/-- A token is put in front of later ones. -/
theorem emitAfter_length
    (cursor : Cursor) (later earlier : List Token) (blocks : List Nat) (key : Option PossibleKey)
    (token : Token) :
    emitAfter ⟨cursor, later ++ earlier, blocks, [key], false⟩ earlier.length token =
      ⟨cursor, later ++ token :: earlier, blocks, [key], false⟩ := by
  rw [emitAfter, List.length_append, Nat.add_sub_cancel, List.splitAt_eq, List.take_left,
    List.drop_left]

/-- The block of the fields is open already. -/
theorem openBlock_self (count : Nat) (token : Token) (outer : List Nat) :
    openBlock ⟨cursor, tokens, level :: outer, [none], false⟩ level count token =
      ⟨cursor, tokens, level :: outer, [none], false⟩ := by
  rw [openBlock, if_neg]
  simp

/-- A block is opened further inside. -/
theorem openBlock_of_lt
    (count : Nat) (token : Token) (outside : ∀ block ∈ blocks.head?, block < level) :
    openBlock ⟨cursor, tokens, blocks, [none], false⟩ level count token =
      { emitAfter ⟨cursor, tokens, blocks, [none], false⟩ count token with
        blocks := level :: blocks } := by
  rw [openBlock, if_pos]
  simpa [inFlow, Option.all_eq_true] using outside

/-- The colon after the name of a field turns it into a key, and opens the block if it is the first
field. -/
theorem takeToken?_keyColon
    {name : Token} {outer : List Nat} {opened : List Token} {start : Cursor} {more : List Char}
    (required : Bool)
    (block :
      blocks = level :: outer ∧ opened = tokens ∨
        blocks = outer ∧ (∀ block ∈ outer.head?, block < level) ∧
          opened = .blockMappingStart :: tokens)
    (stands : cursor.StandsAt (':' :: more) column) (inside : 0 < column)
    (starts : startsGap more = true) (isStart : start.column = level) :
    takeToken?
        ⟨cursor, name :: tokens, blocks, [some ⟨required, tokens.length, start⟩], false⟩ =
      some
        ⟨cursor.skip 1, .value :: name :: .key :: opened, level :: outer, [none], false⟩ := by
  have key := emitAfter_length cursor [name] tokens blocks none .key
  have isBlock := emitAfter_length cursor [name, .key] tokens blocks none .blockMappingStart
  simp only [List.cons_append, List.nil_append] at key isBlock
  rw [takeToken?_colon stands inside starts, takeColon?]
  dsimp only
  rw [key, isStart]
  rcases block with ⟨rfl, rfl⟩ | ⟨rfl, outside, rfl⟩
  · rw [openBlock_self]
    rfl
  · rw [openBlock_of_lt _ _ outside, isBlock]
    rfl

/-- The name of a field and its colon are cut into tokens, and the block of the fields is opened in
front of the first of them. -/
theorem proceed_name
    {name more : List Char} {outer : List Nat} {opened : List Token}
    (isWord : Value.IsWord name) (short : name.length ≤ longestKey)
    (block :
      blocks = level :: outer ∧ opened = tokens ∨
        blocks = outer ∧ (∀ block ∈ outer.head?, block < level) ∧
          opened = .blockMappingStart :: tokens)
    (stands : cursor.StandsAt (name ++ ':' :: more) level) (starts : startsGap more = true) :
    proceed (rounds + 1) ⟨cursor, tokens, blocks, [none], true⟩ =
      takeTokens rounds
        ⟨(cursor.skip name.length).skip 1,
          .value :: .scalar .plain (String.ofList name) :: .key :: opened, level :: outer, [none],
          false⟩ := by
  obtain ⟨required, takesName⟩ := takeToken?_name tokens blocks isWord stands starts
  have atColon := stands.skip name
  have inside : 0 < level + name.length :=
    Nat.lt_of_lt_of_le (List.length_pos_of_ne_nil isWord.notEmpty) (Nat.le_add_left _ _)
  have startsColon : StartsToken (':' :: more) := by
    rintro _ ⟨⟩
    exact ⟨rfl, by decide, by decide⟩
  have noSpaces : (cursor.skip name.length).StandsAt (Value.spaces 0 ++ ':' :: more) _ := atColon
  have noneClosed : ∀ block ∈ blocks.head?, block ≤ (cursor.skip name.length).column := by
    rw [atColon.column]
    rcases block with ⟨rfl, _⟩ | ⟨rfl, outside, _⟩
    · rintro _ ⟨⟩
      exact Nat.le_add_right _ _
    · exact fun block member => Nat.le_add_right_of_le (Nat.le_of_lt (outside block member))
  have notStale :
      dropStaleKeys?
          ⟨cursor.skip name.length, .scalar .plain (String.ofList name) :: tokens, blocks,
            [some ⟨required, tokens.length, cursor⟩], false⟩ =
        some
          ⟨cursor.skip name.length, .scalar .plain (String.ofList name) :: tokens, blocks,
            [some ⟨required, tokens.length, cursor⟩], false⟩ := by
    simp [dropStaleKeys?, Cursor.skip, Nat.not_lt.mpr short]
  rw [proceed, if_neg (by simp [stands.rest]), takesName, Option.bind_some, takeTokens_succ,
    skipGap_spaces noSpaces startsColon]
  dsimp only
  rw [Cursor.skip_zero, notStale, Option.bind_some, closeDeeperBlocks_of_le _ noneClosed, proceed,
    if_neg (by simp [atColon.rest]),
    takeToken?_keyColon required block atColon inside starts stands.column]
  rfl

end

end Scanner

end SourcePreview.Yaml
