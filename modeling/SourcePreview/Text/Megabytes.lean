/-!
# Sizes in megabytes

A number of bytes is shown in megabytes of 2^20 bytes with one decimal place.  It is first rounded
to fifty-three binary digits and then to tenths, both times to the nearest and in the middle to
the even neighbour.
-/

namespace SourcePreview.Text

/-- The natural number nearest to a quotient, the even one of two. -/
def roundQuotient (dividend divisor : Nat) : Nat :=
  let quotient := dividend / divisor
  let twice := 2 * (dividend % divisor)
  if twice < divisor ∨ (twice = divisor ∧ quotient % 2 = 0) then quotient else quotient + 1

/-- The number with at most fifty-three binary digits before its zeros that is nearest to a
number. -/
def roundBinary (value : Nat) : Nat :=
  let unit := 1 <<< (value.log2 - 52)
  roundQuotient value unit * unit

/-- A number of bytes in megabytes. -/
def megabytes (size : Nat) : String :=
  let tenths := roundQuotient (roundBinary size * 10) (1024 * 1024)
  toString (tenths / 10) ++ "." ++ toString (tenths % 10)

end SourcePreview.Text
