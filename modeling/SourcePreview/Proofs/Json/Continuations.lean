import SourcePreview.Proofs.Json.RoundTrip

/-!
# Reading documents that go on

A string, an array and an object end with a mark of their own, so what is read of some bytes is read
of them too if more bytes follow.  Only a number may go on.  Therefore a strict prefix of a printed
document spells no document but a number, wherever it is cut.
-/

namespace SourcePreview.Json

theorem skipSpace_append_of_eq_cons
    {bytes rest : Bytes} {byte : UInt8} (skips : skipSpace bytes = byte :: rest)
    (more : Bytes) :
    skipSpace (bytes ++ more) = byte :: (rest ++ more) := by
  rw [skipSpace] at skips ⊢
  rw [List.dropWhile_append, skips]
  rfl

/-- A string ends with its closing quote. -/
theorem readString_append_of_eq_some
    {read bytes written rest : Bytes}
    (reads : readString read bytes = some (written, rest)) (more : Bytes) :
    readString read (bytes ++ more) = some (written, rest ++ more) := by
  fun_induction readString read bytes with
  | case1 read => cases reads
  | case2 read a b c d tail digits ih =>
      rw [List.cons_append, List.cons_append, List.cons_append, List.cons_append,
        List.cons_append, List.cons_append, readString, if_pos digits]
      exact ih reads
  | case3 => cases reads
  | case4 read letter tail notCode known ih =>
      have notU : letter ≠ 0x75 := by
        rintro rfl
        exact absurd known (by decide)
      rw [List.cons_append, List.cons_append, readString, if_pos known]
      · exact ih reads
      · intro a b c d others isU
        exact absurd isU notU
  | case5 => cases reads
  | case6 read tail =>
      obtain ⟨rfl, rfl⟩ := Prod.mk.inj (Option.some.inj reads)
      rfl
  | case7 => cases reads
  | case8 read byte tail _ _ notQuote plain ih =>
      have notEscape : byte ≠ 0x5C := fun isEscape => plain (.inr isEscape)
      rw [List.cons_append, readString, if_neg notQuote, if_neg plain]
      · exact ih reads
      · intro a b c d others isEscape
        exact absurd isEscape notEscape
      · intro letter others isEscape
        exact absurd isEscape notEscape

/-- Digits end where something else stands. -/
theorem readDigits_append_of_eq_some
    {bytes digits rest : Bytes} (reads : readDigits bytes = some (digits, rest))
    (goesOn : rest ≠ []) (more : Bytes) :
    readDigits (bytes ++ more) = some (digits, rest ++ more) := by
  rw [readDigits, Option.ite_none_left_eq_some] at reads
  obtain ⟨notEmpty, reads⟩ := reads
  obtain ⟨taken, dropped⟩ := Prod.mk.inj (Option.some.inj reads)
  have ended : (bytes.takeWhile isDigit).length ≠ bytes.length := by
    intro same
    have whole := List.takeWhile_append_dropWhile (p := isDigit) (l := bytes)
    have sizes := congrArg List.length whole
    rw [List.length_append, same, dropped] at sizes
    exact goesOn (List.length_eq_zero_iff.mp (by omega))
  have stillTaken : (bytes ++ more).takeWhile isDigit = digits := by
    rw [List.takeWhile_append, if_neg ended, taken]
  have stillDropped : (bytes ++ more).dropWhile isDigit = rest ++ more := by
    rw [List.dropWhile_append, dropped, if_neg (by simpa using goesOn)]
  rw [readDigits, stillTaken, stillDropped, if_neg (taken ▸ notEmpty)]

theorem readWhole_append_of_eq_some
    {bytes digits rest : Bytes} (reads : readWhole bytes = some (digits, rest))
    (goesOn : rest ≠ []) (more : Bytes) :
    readWhole (bytes ++ more) = some (digits, rest ++ more) := by
  rw [readWhole.eq_def] at reads
  split at reads
  · next tail =>
      rw [Option.ite_none_left_eq_some] at reads
      obtain ⟨ended, reads⟩ := reads
      obtain ⟨rfl, rfl⟩ := Prod.mk.inj (Option.some.inj reads)
      cases tail with
      | nil => exact absurd rfl goesOn
      | cons next tail =>
          rw [List.cons_append, readWhole, List.cons_append, List.head?_cons, if_neg]
          exact ended
  · next notZero =>
      have longer := readDigits_append_of_eq_some reads goesOn more
      cases bytes with
      | nil => cases reads
      | cons byte tail =>
          rw [List.cons_append, readWhole]
          · exact longer
          · intro others starts
            exact notZero tail (by rw [(List.cons.inj starts).1])

theorem readFraction_append_of_eq_some
    {bytes fraction rest : Bytes} (reads : readFraction bytes = some (fraction, rest))
    (goesOn : rest ≠ []) (more : Bytes) :
    bytes ≠ [] ∧ readFraction (bytes ++ more) = some (fraction, rest ++ more) := by
  rw [readFraction.eq_def] at reads
  split at reads
  · next tail =>
      obtain ⟨⟨digits, others⟩, digitsRead, reads⟩ := Option.bind_eq_some_iff.mp reads
      obtain ⟨rfl, rfl⟩ := Prod.mk.inj (Option.some.inj reads)
      refine ⟨List.cons_ne_nil _ _, ?_⟩
      rw [List.cons_append, readFraction,
        readDigits_append_of_eq_some digitsRead goesOn more]
      rfl
  · next notPoint =>
      obtain ⟨rfl, rfl⟩ := Prod.mk.inj (Option.some.inj reads)
      refine ⟨goesOn, ?_⟩
      cases bytes with
      | nil => exact absurd rfl goesOn
      | cons byte tail =>
          rw [List.cons_append, readFraction]
          intro others starts
          exact notPoint tail (by rw [(List.cons.inj starts).1])

theorem readSign_append
    {bytes : Bytes} (goesOn : bytes ≠ []) (more : Bytes) :
    readSign (bytes ++ more) = ((readSign bytes).1, (readSign bytes).2 ++ more) := by
  cases bytes with
  | nil => exact absurd rfl goesOn
  | cons byte tail =>
      rw [List.cons_append, readSign, readSign]
      split <;> rfl

theorem readExponent_append_of_eq_some
    {bytes exponent rest : Bytes} (reads : readExponent bytes = some (exponent, rest))
    (goesOn : rest ≠ []) (more : Bytes) :
    bytes ≠ [] ∧ readExponent (bytes ++ more) = some (exponent, rest ++ more) := by
  cases bytes with
  | nil =>
      obtain ⟨-, rfl⟩ := Prod.mk.inj (Option.some.inj reads)
      exact absurd rfl goesOn
  | cons byte tail =>
      refine ⟨List.cons_ne_nil _ _, ?_⟩
      rw [readExponent] at reads
      rw [List.cons_append, readExponent]
      split at reads
      · next isLetter =>
          rcases signRead : readSign tail with ⟨sign, afterSign⟩
          rw [signRead] at reads
          obtain ⟨⟨digits, others⟩, digitsRead, reads⟩ := Option.bind_eq_some_iff.mp reads
          obtain ⟨rfl, rfl⟩ := Prod.mk.inj (Option.some.inj reads)
          have notEmpty : tail ≠ [] := by
            rintro rfl
            cases signRead
            cases digitsRead
          have digitsReadOn := readDigits_append_of_eq_some digitsRead goesOn more
          rw [if_pos isLetter, readSign_append notEmpty, signRead]
          simp only [digitsReadOn, Option.bind_eq_bind, Option.bind_some]
          rfl
      · next notLetter =>
          obtain ⟨rfl, rfl⟩ := Prod.mk.inj (Option.some.inj reads)
          rw [if_neg notLetter]
          rfl

theorem readMinus_append
    {bytes : Bytes} (goesOn : bytes ≠ []) (more : Bytes) :
    readMinus (bytes ++ more) = ((readMinus bytes).1, (readMinus bytes).2 ++ more) := by
  cases bytes with
  | nil => exact absurd rfl goesOn
  | cons byte tail =>
      by_cases isMinus : byte = 0x2D
      · rw [isMinus]
        rfl
      · have noSign (others : Bytes) : readMinus (byte :: others) = ([], byte :: others) := by
          rw [readMinus]
          intro _ starts
          exact isMinus (List.cons.inj starts).1
        rw [List.cons_append, noSign, noSign]
        rfl

/-- A number ends where something stands that cannot go on with it. -/
theorem readNumber_append_of_eq_some
    {bytes spelling rest : Bytes} (reads : readNumber bytes = some (spelling, rest))
    (goesOn : rest ≠ []) (more : Bytes) :
    readNumber (bytes ++ more) = some (spelling, rest ++ more) := by
  rcases signRead : readMinus bytes with ⟨sign, afterSign⟩
  rw [readNumber, signRead] at reads
  obtain ⟨⟨whole, afterWhole⟩, wholeRead, reads⟩ := Option.bind_eq_some_iff.mp reads
  obtain ⟨⟨fraction, afterFraction⟩, fractionRead, reads⟩ := Option.bind_eq_some_iff.mp reads
  obtain ⟨⟨exponent, afterExponent⟩, exponentRead, reads⟩ := Option.bind_eq_some_iff.mp reads
  obtain ⟨rfl, rfl⟩ := Prod.mk.inj (Option.some.inj reads)
  obtain ⟨exponentFollows, exponentRead⟩ :=
    readExponent_append_of_eq_some exponentRead goesOn more
  obtain ⟨fractionFollows, fractionRead⟩ :=
    readFraction_append_of_eq_some fractionRead exponentFollows more
  have wholeReadOn := readWhole_append_of_eq_some wholeRead fractionFollows more
  have notEmpty : bytes ≠ [] := by
    rintro rfl
    cases signRead
    cases wholeRead
  rw [readNumber, readMinus_append notEmpty, signRead]
  simp only [wholeReadOn, fractionRead, exponentRead, Option.bind_eq_bind, Option.bind_some]
  rfl

theorem afterWord?_append_of_eq_some
    {word bytes rest : Bytes} (reads : afterWord? word bytes = some rest) (more : Bytes) :
    afterWord? word (bytes ++ more) = some (rest ++ more) := by
  fun_induction afterWord? word bytes with
  | case1 =>
      cases reads
      rw [afterWord?]
  | case2 => cases reads
  | case3 word byte tail ih =>
      rw [List.cons_append, afterWord?, if_pos rfl]
      exact ih reads
  | case4 => cases reads

theorem readValue_nil (depth : Nat) : readValue depth [] = none := by
  cases depth <;> rfl

theorem readItems_nil (depth : Nat) (read : List Json) : readItems depth read [] = none := by
  cases depth with
  | zero => rfl
  | succ depth => rw [readItems, readValue_nil]

theorem readMembers_nil (depth : Nat) (read : List (Bytes × Json)) :
    readMembers depth read [] = none := by
  cases depth <;> rfl

/-- Brackets end with the closing one. -/
theorem readInside_append_of_eq_some
    {close : UInt8} {empty document : Json} {readParts readMore : Bytes → Option (Json × Bytes)}
    {bytes rest more : Bytes} (noParts : readParts [] = none)
    (goesOn : ∀ {bytes}, readParts bytes = some (document, rest) →
      readMore (bytes ++ more) = some (document, rest ++ more))
    (reads : readInside close empty readParts bytes = some (document, rest)) :
    readInside close empty readMore (bytes ++ more) = some (document, rest ++ more) := by
  rw [readInside] at reads
  cases inside : skipSpace bytes with
  | nil =>
      rw [inside] at reads
      cases noParts.symm.trans reads
  | cons first others =>
      rw [inside] at reads
      rw [readInside, skipSpace_append_of_eq_cons inside]
      dsimp only at reads ⊢
      split at reads
      · next ended =>
          obtain ⟨rfl, rfl⟩ := Prod.mk.inj (Option.some.inj reads)
          rw [if_pos ended]
      · next notEnded =>
          rw [if_neg notEnded]
          exact goesOn reads

mutual

/-- What is read of bytes is read of longer bytes too, also at a greater depth, unless it is a
number that nothing follows. -/
theorem readValue_append_of_eq_some
    {depth deeper : Nat} (le : depth ≤ deeper) {bytes rest : Bytes} {document : Json}
    (reads : readValue depth bytes = some (document, rest))
    (ends : rest ≠ [] ∨ ∀ spelling, document ≠ .number spelling) (more : Bytes) :
    readValue deeper (bytes ++ more) = some (document, rest ++ more) := by
  cases depth with
  | zero => cases reads
  | succ depth =>
      obtain ⟨deeper, rfl⟩ : ∃ smaller, deeper = smaller + 1 := ⟨deeper - 1, by omega⟩
      have leInside : depth ≤ deeper := Nat.le_of_succ_le_succ le
      have whole := reads
      rw [readValue] at reads
      split at reads
      case h_1 => cases reads
      case h_2 tail starts =>
        rw [readValue_eq_of_brace starts] at whole
        rw [readValue_eq_of_brace (skipSpace_append_of_eq_cons starts more)]
        exact
          readInside_append_of_eq_some (readMembers_nil depth [])
            (fun reads => readMembers_append_of_eq_some leInside reads more) whole
      case h_3 tail starts =>
        rw [readValue_eq_of_bracket starts] at whole
        rw [readValue_eq_of_bracket (skipSpace_append_of_eq_cons starts more)]
        exact
          readInside_append_of_eq_some (readItems_nil depth [])
            (fun reads => readItems_append_of_eq_some leInside reads more) whole
      case h_4 tail starts =>
        obtain ⟨⟨written, others⟩, stringRead, same⟩ := Option.map_eq_some_iff.mp reads
        cases same
        rw [readValue, skipSpace_append_of_eq_cons starts]
        simp only [readString_append_of_eq_some stringRead more, Option.map_some]
      case h_5 tail starts | h_6 tail starts | h_7 tail starts =>
        obtain ⟨others, wordRead, same⟩ := Option.map_eq_some_iff.mp reads
        cases same
        rw [readValue, skipSpace_append_of_eq_cons starts]
        simp only [afterWord?_append_of_eq_some wordRead more, Option.map_some]
      case h_8 _ notBrace notBracket notQuote notNull notTrue notFalse =>
        obtain ⟨⟨spelling, others⟩, numberRead, same⟩ := Option.map_eq_some_iff.mp reads
        cases same
        have goesOn : rest ≠ [] := ends.resolve_right fun notNumber => notNumber spelling rfl
        cases starts : skipSpace bytes with
        | nil =>
            rw [starts] at numberRead
            cases numberRead
        | cons first tail =>
            have opensNumber : first ∉ openings := by
              intro opens
              simp only [openings, List.mem_cons, List.not_mem_nil, or_false] at opens
              rcases opens with rfl | rfl | rfl | rfl | rfl | rfl
              exacts [notBrace tail starts, notBracket tail starts, notQuote tail starts,
                notNull tail starts, notTrue tail starts, notFalse tail starts]
            have numberReadOn := readNumber_append_of_eq_some numberRead goesOn more
            rw [starts, List.cons_append] at numberReadOn
            rw [readValue_eq_readNumber (skipSpace_append_of_eq_cons starts more) opensNumber,
              numberReadOn, Option.map_some]
termination_by depth

/-- The rest of an array ends with its closing bracket. -/
theorem readItems_append_of_eq_some
    {depth deeper : Nat} (le : depth ≤ deeper) {read : List Json} {bytes rest : Bytes}
    {document : Json} (reads : readItems depth read bytes = some (document, rest))
    (more : Bytes) :
    readItems deeper read (bytes ++ more) = some (document, rest ++ more) := by
  cases depth with
  | zero => cases reads
  | succ depth =>
      obtain ⟨deeper, rfl⟩ : ∃ smaller, deeper = smaller + 1 := ⟨deeper - 1, by omega⟩
      have leInside : depth ≤ deeper := Nat.le_of_succ_le_succ le
      rw [readItems] at reads
      split at reads
      case h_1 => cases reads
      case h_2 item afterItem itemRead =>
        cases follows : skipSpace afterItem with
        | nil =>
            rw [follows] at reads
            cases reads
        | cons first others =>
            have goesOn : afterItem ≠ [] := by
              rintro rfl
              cases follows
            rw [readItems, readValue_append_of_eq_some leInside itemRead (.inl goesOn) more]
            simp only [skipSpace_append_of_eq_cons follows]
            rw [follows] at reads
            split at reads
            · next comma =>
                obtain ⟨rfl, rfl⟩ := List.cons.inj comma
                exact readItems_append_of_eq_some leInside reads more
            · next bracket =>
                obtain ⟨rfl, rfl⟩ := List.cons.inj bracket
                obtain ⟨rfl, rfl⟩ := Prod.mk.inj (Option.some.inj reads)
                rfl
            · cases reads
termination_by depth

/-- The rest of an object ends with its closing brace. -/
theorem readMembers_append_of_eq_some
    {depth deeper : Nat} (le : depth ≤ deeper) {read : List (Bytes × Json)}
    {bytes rest : Bytes} {document : Json}
    (reads : readMembers depth read bytes = some (document, rest)) (more : Bytes) :
    readMembers deeper read (bytes ++ more) = some (document, rest ++ more) := by
  cases depth with
  | zero => cases reads
  | succ depth =>
      obtain ⟨deeper, rfl⟩ : ∃ smaller, deeper = smaller + 1 := ⟨deeper - 1, by omega⟩
      have leInside : depth ≤ deeper := Nat.le_of_succ_le_succ le
      rw [readMembers] at reads
      split at reads
      case h_2 => cases reads
      case h_1 tail quote =>
        split at reads
        case h_1 => cases reads
        case h_2 key afterKey keyRead =>
          split at reads
          case h_2 => cases reads
          case h_1 afterColon colon =>
            split at reads
            case h_1 => cases reads
            case h_2 value afterValue valueRead =>
              cases follows : skipSpace afterValue with
              | nil =>
                  rw [follows] at reads
                  cases reads
              | cons first others =>
                  have goesOn : afterValue ≠ [] := by
                    rintro rfl
                    cases follows
                  rw [readMembers, skipSpace_append_of_eq_cons quote]
                  simp only [readString_append_of_eq_some keyRead more,
                    skipSpace_append_of_eq_cons colon,
                    readValue_append_of_eq_some leInside valueRead (.inl goesOn) more,
                    skipSpace_append_of_eq_cons follows]
                  rw [follows] at reads
                  split at reads
                  · next comma =>
                      obtain ⟨rfl, rfl⟩ := List.cons.inj comma
                      exact readMembers_append_of_eq_some leInside reads more
                  · next brace =>
                      obtain ⟨rfl, rfl⟩ := List.cons.inj brace
                      obtain ⟨rfl, rfl⟩ := Prod.mk.inj (Option.some.inj reads)
                      rfl
                  · cases reads
termination_by depth

end

/-- No strict prefix of a printed document spells a document, unless it is a number. -/
theorem exists_number_of_compact_eq_append
    {document found : Json} (written : Written document) {bytes more : Bytes}
    (cut : compact document = bytes ++ more) (strict : more ≠ [])
    (reads : parse? bytes = some found) :
    ∃ spelling, found = .number spelling := by
  by_contra noNumber
  rw [parse?] at reads
  split at reads
  · next value rest valueRead =>
      rw [Option.ite_none_right_eq_some] at reads
      obtain ⟨-, same⟩ := reads
      cases same
      have deeper : bytes.length + 1 ≤ (compact document).length + 1 := by
        rw [cut, List.length_append]
        omega
      have readOn :=
        readValue_append_of_eq_some deeper valueRead
          (.inr fun spelling isNumber => noNumber ⟨spelling, isNumber⟩) more
      have atEnd : EndsNumber [] := fun _ none => absurd none (by simp)
      have whole :=
        readValue_compact document written ((compact document).length + 1) (by omega) atEnd
      rw [List.append_nil] at whole
      rw [← cut, whole] at readOn
      have nothing := (Prod.mk.inj (Option.some.inj readOn)).2
      exact strict (List.append_eq_nil_iff.mp nothing.symm).2
  · cases reads

end SourcePreview.Json
