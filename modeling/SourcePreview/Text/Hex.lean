import SourcePreview.Text.Utf8

/-!
# Hexadecimal digits

Bytes as pairs of hexadecimal digits, the high half first, and numbers as any digits after a plus
sign or none.
-/

namespace SourcePreview.Text

/-- The lower-case digit of a number below sixteen. -/
def lowerHexDigit (value : Nat) : Char :=
  if value < 10 then Char.ofNat (48 + value) else Char.ofNat (87 + value)

/-- The upper-case digit of a number below sixteen. -/
def upperHexDigit (value : Nat) : Char :=
  if value < 10 then Char.ofNat (48 + value) else Char.ofNat (55 + value)

/-- A byte as two lower-case digits. -/
def lowerHex (byte : UInt8) : List Char :=
  [lowerHexDigit (byte.toNat / 16), lowerHexDigit (byte.toNat % 16)]

/-- A byte as two upper-case digits. -/
def upperHex (byte : UInt8) : List Char :=
  [upperHexDigit (byte.toNat / 16), upperHexDigit (byte.toNat % 16)]

/-- The value of a byte that is a hexadecimal digit in either case. -/
def hexValue? (byte : UInt8) : Option Nat :=
  let point := byte.toNat
  if 48 ≤ point && point ≤ 57 then some (point - 48)
  else if 97 ≤ point && point ≤ 102 then some (point - 87)
  else if 65 ≤ point && point ≤ 70 then some (point - 55)
  else none

theorem lt_of_hexValue? {byte : UInt8} {value : Nat} (valued : hexValue? byte = some value) :
    value < 16 := by
  simp only [hexValue?, Bool.and_eq_true, decide_eq_true_eq] at valued
  split at valued
  · cases valued
    omega
  · split at valued
    · cases valued
      omega
    · split at valued
      · cases valued
        omega
      · cases valued

/-- A number below 256 with one more digit, if it is still below 256. -/
def withHexDigit? (value : Nat) (digit : UInt8) : Option Nat := do
  let last ← hexValue? digit
  let number := value * 16 + last
  if number < UInt8.size then return number else none

/-- The byte that digits spell, of which there must be one at least; a plus sign may stand in front
of them. -/
def hexByte? (spelling : Bytes) : Option UInt8 :=
  let digits := if spelling.head? = some 0x2B then spelling.tail else spelling
  if digits.isEmpty then none else (digits.foldlM withHexDigit? 0).map UInt8.ofNat

end SourcePreview.Text
