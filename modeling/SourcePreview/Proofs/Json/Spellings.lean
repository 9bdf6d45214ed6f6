import SourcePreview.Json.Printer
import SourcePreview.Proofs.Json.Numbers
import SourcePreview.Proofs.Json.Strings

/-!
# Spellings of JSON documents

A document can be spelled with white space in many places.  Here are all the spellings of documents
whose strings are written texts and whose numbers are written natural numbers, by rules that follow
the parts of a document.  Every spelling is read as its document, whatever comes after it that
cannot go on with a number; the depth that reading is given has to be no less than the number of
bytes.
-/

namespace SourcePreview.Json

/-- Whether bytes are white space, perhaps none. -/
def IsGap (gap : Bytes) : Prop :=
  ∀ byte ∈ gap, isSpace byte = true

theorem isGap_nil : IsGap [] := by
  simp [IsGap]

/-- What a stretch of bytes may spell. -/
inductive Part where
  | document (document : Json)
  /-- The items of an array up to its closing bracket. -/
  | items (items : List Json)
  | member (key : Bytes) (value : Json)
  /-- The members of an object up to its closing brace. -/
  | members (members : List (Bytes × Json))

/-- Whether bytes spell a part of a document. -/
inductive Spells : Part → Bytes → Prop where
  | null : Spells (.document .null) (ascii "null")
  | bool (value : Bool) : Spells (.document (.bool value)) (boolSpelling value)
  | number (value : Nat) : Spells (.document (.number (decimal value))) (decimal value)
  | string (text : String) :
      Spells (.document (.string (escape text))) (inQuotes (escape text))
  | emptyArray {gap : Bytes} (blank : IsGap gap) :
      Spells (.document (.array [])) (0x5B :: (gap ++ [0x5D]))
  | array {items : List Json} {gap bytes : Bytes}
      (blank : IsGap gap) (inner : Spells (.items items) bytes) :
      Spells (.document (.array items)) (0x5B :: (gap ++ bytes))
  | emptyObject {gap : Bytes} (blank : IsGap gap) :
      Spells (.document (.object [])) (0x7B :: (gap ++ [0x7D]))
  | object {members : List (Bytes × Json)} {gap bytes : Bytes}
      (blank : IsGap gap) (inner : Spells (.members members) bytes) :
      Spells (.document (.object members)) (0x7B :: (gap ++ bytes))
  | lastItem {item : Json} {bytes gap : Bytes}
      (spelled : Spells (.document item) bytes) (blank : IsGap gap) :
      Spells (.items [item]) (bytes ++ (gap ++ [0x5D]))
  | moreItems {item : Json} {items : List Json} {bytes before after rest : Bytes}
      (spelled : Spells (.document item) bytes)
      (blankBefore : IsGap before) (blankAfter : IsGap after)
      (others : Spells (.items items) rest) :
      Spells (.items (item :: items)) (bytes ++ (before ++ 0x2C :: (after ++ rest)))
  | member (text : String) {value : Json} {before after bytes : Bytes}
      (blankBefore : IsGap before) (blankAfter : IsGap after)
      (spelled : Spells (.document value) bytes) :
      Spells (.member (escape text) value)
        (inQuotes (escape text) ++ (before ++ 0x3A :: (after ++ bytes)))
  | lastMember {key : Bytes} {value : Json} {bytes gap : Bytes}
      (spelled : Spells (.member key value) bytes) (blank : IsGap gap) :
      Spells (.members [(key, value)]) (bytes ++ (gap ++ [0x7D]))
  | moreMembers {key : Bytes} {value : Json} {members : List (Bytes × Json)}
      {bytes before after rest : Bytes}
      (spelled : Spells (.member key value) bytes)
      (blankBefore : IsGap before) (blankAfter : IsGap after)
      (others : Spells (.members members) rest) :
      Spells (.members ((key, value) :: members)) (bytes ++ (before ++ 0x2C :: (after ++ rest)))

/-! ### White space -/

theorem skipSpace_append {gap : Bytes} (blank : IsGap gap) (rest : Bytes) :
    skipSpace (gap ++ rest) = skipSpace rest :=
  List.dropWhile_append_of_pos blank

theorem skipSpace_cons_of_not_isSpace
    {byte : UInt8} (notSpace : isSpace byte = false) (rest : Bytes) :
    skipSpace (byte :: rest) = byte :: rest := by
  simp [skipSpace, notSpace]

/-- Neither white space nor what comes after a part of an array or an object goes on with a
number. -/
theorem endsNumber_append
    {gap rest : Bytes} (blank : IsGap gap) (ends : EndsNumber rest) :
    EndsNumber (gap ++ rest) := by
  cases gap with
  | nil => exact ends
  | cons first gap =>
      intro byte isFirst
      cases isFirst
      have space := blank first List.mem_cons_self
      simp only [isSpace, Bool.or_eq_true, beq_iff_eq] at space
      rcases space with ((rfl | rfl) | rfl) | rfl <;> decide

theorem endsNumber_cons
    (byte : UInt8) (rest : Bytes)
    (notNumber :
      isDigit byte = false ∧ byte ≠ 0x2E ∧ byte ≠ 0x65 ∧ byte ≠ 0x45) :
    EndsNumber (byte :: rest) := by
  intro first isFirst
  cases isFirst
  exact notNumber

/-- No part begins with white space or with a closing bracket or brace. -/
theorem Spells.exists_eq_cons {part : Part} {bytes : Bytes} (spells : Spells part bytes) :
    ∃ first rest,
      bytes = first :: rest ∧ isSpace first = false ∧ first ≠ 0x5D ∧ first ≠ 0x7D := by
  induction spells with
  | null => exact ⟨0x6E, _, rfl, rfl, by decide, by decide⟩
  | bool value => cases value <;> exact ⟨_, _, rfl, rfl, by decide, by decide⟩
  | number value =>
      cases digits : decimal value with
      | nil => exact absurd digits (decimal_ne_nil value)
      | cons first rest =>
          have member : first ∈ decimal value := by simp [digits]
          have isADigit := isDigit_of_mem_decimal member
          refine ⟨first, rest, rfl, ?_, ?_, ?_⟩
          · cases space : isSpace first with
            | false => rfl
            | true =>
                simp only [isSpace, Bool.or_eq_true, beq_iff_eq] at space
                rcases space with ((rfl | rfl) | rfl) | rfl <;>
                  exact absurd isADigit (by decide)
          · rintro rfl
            exact absurd isADigit (by decide)
          · rintro rfl
            exact absurd isADigit (by decide)
  | string text => exact ⟨0x22, _, rfl, rfl, by decide, by decide⟩
  | emptyArray blank | array blank inner ih =>
      exact ⟨0x5B, _, rfl, rfl, by decide, by decide⟩
  | emptyObject blank | object blank inner ih =>
      exact ⟨0x7B, _, rfl, rfl, by decide, by decide⟩
  | member text blankBefore blankAfter spelled ih =>
      exact ⟨0x22, _, rfl, rfl, by decide, by decide⟩
  | lastItem spelled blank ih | moreItems spelled blankBefore blankAfter others ih othersIH
  | lastMember spelled blank ih | moreMembers spelled blankBefore blankAfter others ih othersIH =>
      obtain ⟨first, rest, rfl, properties⟩ := ih
      exact ⟨first, _, rfl, properties⟩

/-! ### One step of reading -/

section Steps

attribute [local simp] readValue readItems readMembers

/-- White space in front of a part is passed over. -/
theorem readValue_append {gap : Bytes} (blank : IsGap gap) (depth : Nat) (rest : Bytes) :
    readValue depth (gap ++ rest) = readValue depth rest := by
  cases depth with
  | zero => rfl
  | succ depth => simp [skipSpace_append blank]

theorem readItems_append
    {gap : Bytes} (blank : IsGap gap) (depth : Nat) (read : List Json) (rest : Bytes) :
    readItems depth read (gap ++ rest) = readItems depth read rest := by
  cases depth with
  | zero => rfl
  | succ depth => simp [readValue_append blank]

theorem readMembers_append
    {gap : Bytes} (blank : IsGap gap) (depth : Nat) (read : List (Bytes × Json))
    (rest : Bytes) :
    readMembers depth read (gap ++ rest) = readMembers depth read rest := by
  cases depth with
  | zero => rfl
  | succ depth => simp [skipSpace_append blank]

/-- The bytes that open a document other than a number. -/
def openings : List UInt8 :=
  [0x7B, 0x5B, 0x22, 0x6E, 0x74, 0x66]

/-- What nothing else opens is read as a number. -/
theorem readValue_eq_readNumber
    {bytes tail : Bytes} {first : UInt8} (starts : skipSpace bytes = first :: tail)
    (opensNumber : first ∉ openings) (depth : Nat) :
    readValue (depth + 1) bytes =
      (readNumber (first :: tail)).map fun (spelling, rest) => (.number spelling, rest) := by
  rw [readValue, starts]
  split
  case h_8 => rfl
  case h_1 empty => cases empty
  all_goals
    next opens =>
      rw [(List.cons.inj opens).1] at opensNumber
      exact absurd (by decide) opensNumber

/-- A number is read from its digits. -/
theorem readValue_number
    (value depth : Nat) {rest : Bytes} (ends : EndsNumber rest) :
    readValue (depth + 1) (decimal value ++ rest) =
      some (.number (decimal value), rest) := by
  have number := readNumber_append value ends
  obtain ⟨first, others, digits, notSpace, -⟩ := (Spells.number value).exists_eq_cons
  have member : first ∈ decimal value := by simp [digits]
  have isADigit := isDigit_of_mem_decimal member
  have opensNumber : first ∉ openings := by
    intro opens
    simp only [openings, List.mem_cons, List.not_mem_nil, or_false] at opens
    rcases opens with rfl | rfl | rfl | rfl | rfl | rfl
    all_goals exact absurd isADigit (by decide)
  rw [digits, List.cons_append] at number ⊢
  rw [readValue_eq_readNumber (skipSpace_cons_of_not_isSpace notSpace _) opensNumber, number]
  rfl

/-- A written text between quotes is read. -/
theorem readValue_string (text : String) (depth : Nat) (rest : Bytes) :
    readValue (depth + 1) (inQuotes (escape text) ++ rest) =
      some (.string (escape text), rest) := by
  have written : inQuotes (escape text) ++ rest = 0x22 :: (escape text ++ 0x22 :: rest) := by
    simp [inQuotes]
  rw [written, readValue, skipSpace_cons_of_not_isSpace rfl]
  simp [readString_escape]

section Brackets

/-- Reads what is between brackets: nothing if the closing one comes next, or else its parts. -/
def readInside
    (close : UInt8) (empty : Json) (readParts : Bytes → Option (Json × Bytes)) (bytes : Bytes) :
    Option (Json × Bytes) :=
  match skipSpace bytes with
  | [] => readParts []
  | first :: rest => if first = close then some (empty, rest) else readParts (first :: rest)

/-- What depends on whether the closing bracket comes next is what is read inside. -/
theorem eq_readInside
    {close : UInt8} {empty : Json} {readParts : Bytes → Option (Json × Bytes)} {bytes : Bytes}
    {result : Option (Json × Bytes)}
    (ended : ∀ rest, skipSpace bytes = close :: rest → result = some (empty, rest))
    (goesOn : (∀ rest, skipSpace bytes ≠ close :: rest) → result = readParts (skipSpace bytes)) :
    result = readInside close empty readParts bytes := by
  rw [readInside]
  split
  · next nothing => rw [goesOn (by simp [nothing]), nothing]
  · next first rest inside =>
      split
      · next isEnd => exact ended rest (isEnd ▸ inside)
      · next notEnd => rw [goesOn (by simp [inside, notEnd]), inside]

theorem readValue_eq_of_bracket
    {bytes tail : Bytes} (starts : skipSpace bytes = 0x5B :: tail) (depth : Nat) :
    readValue (depth + 1) bytes = readInside 0x5D (.array []) (readItems depth []) tail := by
  rw [readValue, starts]
  -- Which case of the inner match applies follows from what is assumed of the next byte.
  exact eq_readInside (fun rest ended => by simp only [ended]) fun notEnded => by simp only

theorem readValue_eq_of_brace
    {bytes tail : Bytes} (starts : skipSpace bytes = 0x7B :: tail) (depth : Nat) :
    readValue (depth + 1) bytes = readInside 0x7D (.object []) (readMembers depth []) tail := by
  rw [readValue, starts]
  exact eq_readInside (fun rest ended => by simp only [ended]) fun notEnded => by simp only

variable {gap : Bytes} (blank : IsGap gap) (depth : Nat) (rest : Bytes)

include blank

theorem readInside_append
    {first : UInt8} (notSpace : isSpace first = false) (close : UInt8) (empty : Json)
    (readParts : Bytes → Option (Json × Bytes)) :
    readInside close empty readParts (gap ++ first :: rest) =
      if first = close then some (empty, rest) else readParts (first :: rest) := by
  rw [readInside, skipSpace_append blank, skipSpace_cons_of_not_isSpace notSpace]

theorem readValue_emptyArray :
    readValue (depth + 1) (0x5B :: (gap ++ 0x5D :: rest)) = some (.array [], rest) := by
  rw [readValue_eq_of_bracket (skipSpace_cons_of_not_isSpace rfl _),
    readInside_append blank _ rfl, if_pos rfl]

theorem readValue_emptyObject :
    readValue (depth + 1) (0x7B :: (gap ++ 0x7D :: rest)) = some (.object [], rest) := by
  rw [readValue_eq_of_brace (skipSpace_cons_of_not_isSpace rfl _),
    readInside_append blank _ rfl, if_pos rfl]

variable {first : UInt8} (notSpace : isSpace first = false)

include notSpace

/-- An array that is not empty is read item by item. -/
theorem readValue_array (notEnd : first ≠ 0x5D) :
    readValue (depth + 1) (0x5B :: (gap ++ first :: rest)) =
      readItems depth [] (first :: rest) := by
  rw [readValue_eq_of_bracket (skipSpace_cons_of_not_isSpace rfl _),
    readInside_append blank _ notSpace, if_neg notEnd]

/-- An object that is not empty is read member by member. -/
theorem readValue_object (notEnd : first ≠ 0x7D) :
    readValue (depth + 1) (0x7B :: (gap ++ first :: rest)) =
      readMembers depth [] (first :: rest) := by
  rw [readValue_eq_of_brace (skipSpace_cons_of_not_isSpace rfl _),
    readInside_append blank _ notSpace, if_neg notEnd]

end Brackets

section Separators

variable
    {value : Json} {depth : Nat} {bytes gap rest : Bytes} {stop : UInt8}
    (blank : IsGap gap) (notSpace : isSpace stop = false)
    (valueRead :
      readValue depth (bytes ++ (gap ++ stop :: rest)) = some (value, gap ++ stop :: rest))

include blank notSpace valueRead

/-- An item of an array is read with what comes after it. -/
theorem readItems_item (read : List Json) :
    readItems (depth + 1) read (bytes ++ (gap ++ stop :: rest)) =
      match stop :: rest with
      | 0x2C :: rest => readItems depth (value :: read) rest
      | 0x5D :: rest => some (.array (value :: read).reverse, rest)
      | _ => none := by
  rw [readItems]
  simp only [valueRead, skipSpace_append blank, skipSpace_cons_of_not_isSpace notSpace]
  rfl

/-- A member of an object is read with what comes after it. -/
theorem readMembers_member
    {before after : Bytes} (blankBefore : IsGap before) (blankAfter : IsGap after)
    (text : String) (read : List (Bytes × Json)) :
    readMembers (depth + 1) read
        (inQuotes (escape text) ++ (before ++ 0x3A :: (after ++ bytes)) ++
          (gap ++ stop :: rest)) =
      match stop :: rest with
      | 0x2C :: rest => readMembers depth ((escape text, value) :: read) rest
      | 0x7D :: rest => some (.object ((escape text, value) :: read).reverse, rest)
      | _ => none := by
  have keyRead :=
    readString_escape text (before ++ 0x3A :: (after ++ (bytes ++ (gap ++ stop :: rest))))
  have written :
      inQuotes (escape text) ++ (before ++ 0x3A :: (after ++ bytes)) ++ (gap ++ stop :: rest) =
        0x22 ::
          (escape text ++
            0x22 :: (before ++ 0x3A :: (after ++ (bytes ++ (gap ++ stop :: rest))))) := by
    simp [inQuotes]
  rw [written, readMembers, skipSpace_cons_of_not_isSpace rfl]
  simp only [keyRead, skipSpace_append blankBefore,
    skipSpace_cons_of_not_isSpace (show isSpace 0x3A = false from rfl),
    readValue_append blankAfter, valueRead, skipSpace_append blank,
    skipSpace_cons_of_not_isSpace notSpace]
  rfl

end Separators

end Steps

/-! ### Reading -/

/-- Whether a part is read from bytes, at any depth that is no less than their number. -/
def Part.IsReadFrom (bytes : Bytes) : Part → Prop
  | .document spelled =>
    ∀ depth rest, bytes.length ≤ depth → EndsNumber rest →
      readValue depth (bytes ++ rest) = some (spelled, rest)
  | .items spelled =>
    ∀ depth read rest, bytes.length ≤ depth →
      readItems depth read (bytes ++ rest) = some (.array (read.reverse ++ spelled), rest)
  | .member key value =>
    ∀ depth read gap stop rest, bytes.length ≤ depth + 1 → IsGap gap →
      isSpace stop = false → EndsNumber (stop :: rest) →
        readMembers (depth + 1) read (bytes ++ (gap ++ stop :: rest)) =
          match stop :: rest with
          | 0x2C :: rest => readMembers depth ((key, value) :: read) rest
          | 0x7D :: rest => some (.object ((key, value) :: read).reverse, rest)
          | _ => none
  | .members spelled =>
    ∀ depth read rest, bytes.length ≤ depth →
      readMembers depth read (bytes ++ rest) = some (.object (read.reverse ++ spelled), rest)

/-- Every part is read from its spellings. -/
theorem Spells.isReadFrom {part : Part} {bytes : Bytes} (spells : Spells part bytes) :
    part.IsReadFrom bytes := by
  have comma (rest : Bytes) : EndsNumber (0x2C :: rest) := endsNumber_cons _ _ (by decide)
  have bracket (rest : Bytes) : EndsNumber (0x5D :: rest) := endsNumber_cons _ _ (by decide)
  have brace (rest : Bytes) : EndsNumber (0x7D :: rest) := endsNumber_cons _ _ (by decide)
  induction spells with
  | null =>
      rintro (_ | depth) rest enough _
      · cases enough
      · rfl
  | bool value =>
      rintro (_ | depth) rest enough _
      · cases value <;> cases enough
      · cases value <;> rfl
  | number value =>
      rintro (_ | depth) rest enough ends
      · exact absurd (List.length_eq_zero_iff.mp (Nat.le_zero.mp enough)) (decimal_ne_nil value)
      · exact readValue_number value depth ends
  | string text =>
      rintro (_ | depth) rest enough _
      · cases enough
      · exact readValue_string text depth rest
  | emptyArray blank =>
      rintro (_ | depth) rest enough _
      · cases enough
      · simpa using readValue_emptyArray blank depth rest
  | array blank inner ih =>
      rintro (_ | depth) rest enough _
      · cases enough
      obtain ⟨first, others, rfl, notSpace, notEnd, -⟩ := inner.exists_eq_cons
      simp only [List.length_cons, List.length_append] at enough
      have itemsRead := ih depth [] rest (by simp only [List.length_cons]; omega)
      simp only [List.cons_append, List.append_assoc] at itemsRead ⊢
      rw [readValue_array blank depth _ notSpace notEnd, itemsRead]
      rfl
  | emptyObject blank =>
      rintro (_ | depth) rest enough _
      · cases enough
      · simpa using readValue_emptyObject blank depth rest
  | object blank inner ih =>
      rintro (_ | depth) rest enough _
      · cases enough
      obtain ⟨first, others, rfl, notSpace, -, notEnd⟩ := inner.exists_eq_cons
      simp only [List.length_cons, List.length_append] at enough
      have membersRead := ih depth [] rest (by simp only [List.length_cons]; omega)
      simp only [List.cons_append, List.append_assoc] at membersRead ⊢
      rw [readValue_object blank depth _ notSpace notEnd, membersRead]
      rfl
  | lastItem spelled blank ih =>
      rintro (_ | depth) read rest enough <;>
        simp only [List.length_append, List.length_cons] at enough
      · omega
      have ends := endsNumber_append blank (bracket rest)
      have itemRead := readItems_item blank rfl (ih depth _ (by omega) ends) read
      simpa using itemRead
  | @moreItems item items bytes before after more spelled blankBefore blankAfter others ih
      othersIH =>
      rintro (_ | depth) read rest enough <;>
        simp only [List.length_append, List.length_cons] at enough
      · omega
      have ends := endsNumber_append blankBefore (comma (after ++ (more ++ rest)))
      have itemRead := readItems_item blankBefore rfl (ih depth _ (by omega) ends) read
      have othersRead := othersIH depth (item :: read) rest (by omega)
      simpa [readItems_append blankAfter, othersRead] using itemRead
  | member text blankBefore blankAfter spelled ih =>
      intro depth read gap stop rest enough blank notSpace ends
      simp only [List.length_append, List.length_cons, inQuotes] at enough
      have valueRead := ih depth _ (by omega) (endsNumber_append blank ends)
      exact readMembers_member blank notSpace valueRead blankBefore blankAfter text read
  | lastMember spelled blank ih =>
      rintro (_ | depth) read rest enough <;>
        simp only [List.length_append, List.length_cons] at enough
      · omega
      simpa using ih depth read _ 0x7D rest (by omega) blank rfl (brace rest)
  | @moreMembers key value members bytes before after more spelled blankBefore blankAfter others
      ih othersIH =>
      rintro (_ | depth) read rest enough <;>
        simp only [List.length_append, List.length_cons] at enough
      · omega
      have memberRead :=
        ih depth read before 0x2C (after ++ (more ++ rest)) (by omega) blankBefore rfl (comma _)
      have othersRead := othersIH depth ((key, value) :: read) rest (by omega)
      simpa [readMembers_append blankAfter, othersRead] using memberRead

/-- A spelling with white space around spells its document. -/
theorem parse?_of_spells
    {document : Json} {bytes before after : Bytes} (spells : Spells (.document document) bytes)
    (blankBefore : IsGap before) (blankAfter : IsGap after) :
    parse? (before ++ (bytes ++ after)) = some document := by
  have ends : EndsNumber (after ++ []) :=
    endsNumber_append blankAfter fun _ none => absurd none (by simp)
  rw [List.append_nil] at ends
  have read :
      readValue ((before ++ (bytes ++ after)).length + 1) (bytes ++ after) =
        some (document, after) :=
    spells.isReadFrom _ after (by simp only [List.length_append]; omega) ends
  have passed : skipSpace after = [] := by
    simpa [skipSpace] using skipSpace_append blankAfter []
  rw [parse?, readValue_append blankBefore, read]
  simp [passed]

end SourcePreview.Json
