/-!
# Reading digits back

A reader that goes from digit to digit and multiplies what it has by the base before it adds the
next one reads the digits of a number back as that number.  Zeros in front of them change nothing.
-/

namespace SourcePreview.Text

/-- What holds of every digit of a base holds of the digits of a number. -/
theorem forall_mem_toDigits
    {base : Nat} (property : Char → Prop) (large : 1 < base)
    (holds : ∀ digit < base, property digit.digitChar) (number : Nat) :
    ∀ character ∈ Nat.toDigits base number, property character := by
  induction number using Nat.strongRecOn with
  | ind number ih =>
      have positive : 0 < base := Nat.lt_trans Nat.one_pos large
      rw [Nat.toDigits_eq_if large]
      split
      · next small => exact List.forall_mem_singleton.mpr (holds number small)
      · next notSmall =>
          have smaller : number / base < number :=
            Nat.div_lt_self (Nat.lt_of_lt_of_le positive (Nat.le_of_not_lt notSmall)) large
          rw [List.forall_mem_append]
          exact
            ⟨ih _ smaller,
              List.forall_mem_singleton.mpr (holds _ (Nat.mod_lt number positive))⟩

section

variable
    {base : Nat} (spelled : Char → Char) (step : Nat → Char → Option Nat)
    (reads : ∀ number, ∀ digit < base,
      step number (spelled digit.digitChar) = some (number * base + digit))

include reads

/-- The digits of a number are read back, however they are spelled. -/
theorem foldlM_toDigits (large : 1 < base) (number : Nat) :
    ((Nat.toDigits base number).map spelled).foldlM step 0 = some number := by
  induction number using Nat.strongRecOn with
  | ind number ih =>
      have positive : 0 < base := Nat.lt_trans Nat.one_pos large
      rw [Nat.toDigits_eq_if large]
      split
      · next small =>
          have last := reads 0 number small
          rw [Nat.zero_mul, Nat.zero_add] at last
          rw [List.map_singleton, List.foldlM_cons, last]
          rfl
      · next notSmall =>
          have smaller : number / base < number :=
            Nat.div_lt_self (Nat.lt_of_lt_of_le positive (Nat.le_of_not_lt notSmall)) large
          rw [List.map_append, List.foldlM_append, ih _ smaller, List.map_singleton]
          simp only [Option.bind_eq_bind, Option.bind_some, List.foldlM_cons, List.foldlM_nil]
          rw [reads _ _ (Nat.mod_lt number positive), Nat.div_add_mod']
          rfl

/-- Zeros in front of the digits of a number change nothing. -/
theorem foldlM_zeros_append
    (large : 1 < base) (count : Nat) (digits : List Char) :
    (List.replicate count (spelled '0') ++ digits).foldlM step 0 = digits.foldlM step 0 := by
  induction count with
  | zero => rfl
  | succ count ih =>
      have zero := reads 0 0 (Nat.lt_trans Nat.one_pos large)
      rw [Nat.zero_mul, Nat.zero_add] at zero
      rw [List.replicate_succ, List.cons_append, List.foldlM_cons]
      exact (congrArg (· >>= _) zero).trans ih

end

end SourcePreview.Text
