/-!
# ArrowLang.Text.Decimal

Decimal digits and the numbers they stand for.
-/

namespace ArrowLang

/-- The digits that a number may have where it is read or written in decimal. -/
def maxDigits : Nat := 4300

/-- The number that decimal digits stand for. -/
def decimalValue (digits : List Char) : Nat :=
  digits.foldl (fun n d => 10 * n + (d.toNat - '0'.toNat)) 0

end ArrowLang
