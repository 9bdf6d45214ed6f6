import SourcePreview.Json.Parser
import Mathlib.Data.List.Basic

/-!
# Natural numbers in JSON documents

A natural number is written by its decimal digits, without a zero in front of others.  In front of
anything that could not go on with it, exactly these digits are read, and they stand for the
number.
-/

namespace SourcePreview.Json

/-- The byte of a decimal digit. -/
def digitByte (digit : Nat) : UInt8 :=
  UInt8.ofNat (0x30 + digit)

theorem toNat_digitByte {digit : Nat} (small : digit < 10) :
    (digitByte digit).toNat = 0x30 + digit := by
  rw [digitByte, UInt8.toNat_ofNat', Nat.mod_eq_of_lt (by omega)]

theorem ofNat_digitChar :
    ∀ digit < 10, UInt8.ofNat digit.digitChar.toNat = digitByte digit := by
  decide

/-- The bytes of the decimal digits of a number. -/
def decimal (value : Nat) : Bytes :=
  ascii (toString value)

/-- The digits of a number are those of its tenth and its last one. -/
theorem decimal_eq (value : Nat) :
    decimal value =
      if value < 10 then [digitByte value]
      else decimal (value / 10) ++ [digitByte (value % 10)] := by
  simp only [decimal, ascii, Nat.toString_eq_ofList_toDigits, String.toList_ofList]
  rw [Nat.toDigits_eq_if (by decide)]
  split
  · next small => simp [ofNat_digitChar value small]
  · simp [ofNat_digitChar _ (Nat.mod_lt value (by decide : 0 < 10))]

theorem decimal_ne_nil (value : Nat) :
    decimal value ≠ [] := by
  rw [decimal_eq]
  split <;> simp

theorem isDigit_digitByte {digit : Nat} (small : digit < 10) :
    isDigit (digitByte digit) = true := by
  simp only [isDigit, UInt8.le_iff_toNat_le, toNat_digitByte small,
    Bool.and_eq_true, decide_eq_true_eq, UInt8.reduceToNat]
  omega

/-- A number is written by digits alone. -/
theorem isDigit_of_mem_decimal
    {value : Nat} {byte : UInt8} (member : byte ∈ decimal value) :
    isDigit byte = true := by
  induction value using Nat.strongRecOn with
  | ind value ih =>
      rw [decimal_eq] at member
      split at member
      · next small =>
          rw [List.mem_singleton.mp member]
          exact isDigit_digitByte small
      · rcases List.mem_append.mp member with earlier | last
        · exact ih (value / 10) (by omega) earlier
        · rw [List.mem_singleton.mp last]
          exact isDigit_digitByte (Nat.mod_lt value (by decide))

/-- No zero stands in front of other digits. -/
theorem decimal_eq_zero_cons
    {value : Nat} {rest : Bytes}
    (written : decimal value = 0x30 :: rest) :
    rest = [] := by
  induction value using Nat.strongRecOn generalizing rest with
  | ind value ih =>
      rw [decimal_eq] at written
      split at written
      · next small => exact (List.cons.inj written).2.symm
      · next large =>
          cases tenth : decimal (value / 10) with
          | nil => exact absurd tenth (decimal_ne_nil _)
          | cons first others =>
              rw [tenth, List.cons_append] at written
              obtain ⟨firstZero, _⟩ := List.cons.inj written
              have alone : others = [] :=
                ih (value / 10) (by omega) (firstZero ▸ tenth)
              rw [alone, firstZero, decimal_eq] at tenth
              split at tenth
              · next small =>
                  have zero := congrArg UInt8.toNat (List.cons.inj tenth).1
                  rw [toNat_digitByte small] at zero
                  simp only [UInt8.reduceToNat] at zero
                  omega
              · have sameLength := congrArg List.length tenth
                have positive :
                    0 < (decimal (value / 10 / 10)).length :=
                  List.length_pos_iff.mpr (decimal_ne_nil _)
                simp only [List.length_append, List.length_cons,
                  List.length_nil] at sameLength
                omega

/-- The digits of a number stand for the number. -/
@[simp]
theorem natural?_decimal (value : Nat) :
    natural? (decimal value) = some value := by
  have allDigits : (decimal value).all isDigit = true :=
    List.all_eq_true.mpr fun _ => isDigit_of_mem_decimal
  rw [natural?, if_pos allDigits, Option.some.injEq]
  induction value using Nat.strongRecOn with
  | ind value ih =>
      rw [decimal_eq]
      split
      · next small => simp [toNat_digitByte small]
      · next large =>
          have lastSmall : value % 10 < 10 := Nat.mod_lt value (by decide)
          have tenthDigits :
              (decimal (value / 10)).all isDigit = true :=
            List.all_eq_true.mpr fun _ => isDigit_of_mem_decimal
          rw [List.foldl_append, ih (value / 10) (by omega) tenthDigits]
          simp only [List.foldl_cons, List.foldl_nil, toNat_digitByte lastSmall]
          omega

/-- Whether what comes next cannot go on with a number. -/
def EndsNumber (rest : Bytes) : Prop :=
  ∀ byte ∈ rest.head?,
    isDigit byte = false ∧ byte ≠ 0x2E ∧ byte ≠ 0x65 ∧ byte ≠ 0x45

theorem takeWhile_isDigit_append
    {digits rest : Bytes} (allDigits : ∀ byte ∈ digits, isDigit byte = true)
    (ends : EndsNumber rest) :
    (digits ++ rest).takeWhile isDigit = digits ∧
      (digits ++ rest).dropWhile isDigit = rest := by
  induction digits with
  | nil =>
      cases rest with
      | nil => exact ⟨rfl, rfl⟩
      | cons byte rest =>
          have notDigit : isDigit byte = false := (ends byte rfl).1
          simp [notDigit]
  | cons byte digits ih =>
      have isADigit := allDigits byte (by simp)
      have tail := ih fun other member => allDigits other (by simp [member])
      simp [isADigit, tail]

theorem readDigits_append
    {digits rest : Bytes} (some : digits ≠ [])
    (allDigits : ∀ byte ∈ digits, isDigit byte = true)
    (ends : EndsNumber rest) :
    readDigits (digits ++ rest) = .some (digits, rest) := by
  obtain ⟨taken, dropped⟩ := takeWhile_isDigit_append allDigits ends
  simp [readDigits, taken, dropped, some]

/-- The digits of a number are read up to what cannot go on with it. -/
theorem readWhole_append
    (value : Nat) {rest : Bytes} (ends : EndsNumber rest) :
    readWhole (decimal value ++ rest) =
      some (decimal value, rest) := by
  have digits :=
    readDigits_append (decimal_ne_nil value)
      (fun _ => isDigit_of_mem_decimal) ends
  cases written : decimal value with
  | nil => exact absurd written (decimal_ne_nil value)
  | cons first others =>
      rw [written] at digits
      by_cases firstZero : first = 0x30
      · subst firstZero
        have alone := decimal_eq_zero_cons written
        have notDigit : rest.head?.any isDigit = false := by
          cases rest with
          | nil => rfl
          | cons byte rest => simpa using (ends byte rfl).1
        simp [readWhole, alone, notDigit]
      · rw [readWhole]
        · exact digits
        · intro tail starts
          exact firstZero (List.cons.inj starts).1

theorem readNumber_append
    (value : Nat) {rest : Bytes} (ends : EndsNumber rest) :
    readNumber (decimal value ++ rest) =
      some (decimal value, rest) := by
  have noMinus :
      readMinus (decimal value ++ rest) =
        ([], decimal value ++ rest) := by
    cases written : decimal value with
    | nil => exact absurd written (decimal_ne_nil value)
    | cons first others =>
        have member : first ∈ decimal value := by simp [written]
        have firstDigit := isDigit_of_mem_decimal member
        rw [readMinus]
        rintro tail starts
        rw [(List.cons.inj starts).1] at firstDigit
        exact absurd firstDigit (by decide)
  have noFraction : readFraction rest = some ([], rest) := by
    rw [readFraction.eq_def]
    split
    · next tail => exact absurd rfl (ends 0x2E rfl).2.1
    · rfl
  have noExponent : readExponent rest = some ([], rest) := by
    cases rest with
    | nil => rfl
    | cons byte tail =>
        obtain ⟨_, _, notSmall, notCapital⟩ := ends byte rfl
        simp [readExponent, notSmall, notCapital]
  simp [readNumber, noMinus, readWhole_append value ends, noFraction,
    noExponent]

end SourcePreview.Json
