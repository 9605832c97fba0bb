/-!
# ArrowLang.Log.Format.Numeral

Numbers as a format writes them: a sign, the mark of the base, and digits, laid out in a field.

* `Numeral.ofInt`: an integer in base 8, 10 or 16.
* `Numeral.fixed`, `Numeral.scientific`, `Numeral.general`: an integer written as a real number.
* `Numeral.layout`: the numeral in a field of a given width.
-/

namespace ArrowLang

/-- The flags of a directive. -/
structure FormatFlags where
  /-- `-`: at the left end of the field -/
  left : Bool
  /-- `+`: with a sign in any case -/
  plus : Bool
  /-- a blank for the sign of a number that is not negative -/
  blank : Bool
  /-- `#`: with the mark of the base, and with a decimal point in any case -/
  marked : Bool
  /-- `0`: filled up with zeros -/
  zeros : Bool

structure Numeral where
  negative : Bool
  /-- the mark of the base -/
  mark : List Char
  digits : List Char

namespace Numeral

/-- The numeral in a field of at least `width` characters. Zeros go between the mark and the
digits. -/
def layout (n : Numeral) (flags : FormatFlags) (width : Nat) : List Char :=
  let sign := if n.negative then ['-']
    else if flags.plus then ['+']
    else if flags.blank then [' ']
    else []
  let front := sign ++ n.mark
  let gap := width - (front.length + n.digits.length)
  if flags.left then front ++ n.digits ++ List.replicate gap ' '
  else if flags.zeros then front ++ List.replicate gap '0' ++ n.digits
  else List.replicate gap ' ' ++ front ++ n.digits

/-- `n` in the given base with at least `least` digits. -/
def ofInt (n : Int) (base least : Nat) (mark : List Char) : Numeral :=
  let digits := Nat.toDigits base n.natAbs
  ⟨decide (n < 0), mark, List.replicate (least - digits.length) '0' ++ digits⟩

/-! ## Real numbers -/

/-- `num / den` to the nearest integer, a half to the even one. -/
def roundDiv (num den : Nat) : Nat :=
  let q := num / den
  let r := num % den
  if den < 2 * r || (2 * r == den && q % 2 == 1) then q + 1 else q

/-- The number with at most 53 binary digits and zeros after them that is nearest to `n`. -/
def toDouble (n : Nat) : Nat :=
  let scale := Nat.pow 2 (n.log2 - 52)
  roundDiv n scale * scale

/-- The least number that is too large for a double. -/
def doubleLimit : Nat := Nat.pow 2 1024

/-- A decimal point with `zeros` zeros after it; without zeros it stands only if it is asked for. -/
def fraction (zeros : List Char) (marked : Bool) : List Char :=
  if zeros.isEmpty && !marked then [] else '.' :: zeros

/-- `n` with `places` digits after the point. -/
def fixed (n places : Nat) (marked : Bool) : List Char :=
  Nat.toDigits 10 n ++ fraction (List.replicate places '0') marked

/-- `n` rounded to `size` significant digits: the digits, and the exponent of the first one. -/
def significant (n size : Nat) : List Char × Nat :=
  let digits := Nat.toDigits 10 n
  if digits.length ≤ size then
    (digits ++ List.replicate (size - digits.length) '0', digits.length - 1)
  else
    let rounded := Nat.toDigits 10 (roundDiv n (Nat.pow 10 (digits.length - size)))
    (rounded.take size, digits.length - 1 + (rounded.length - size))

/-- One digit, the rest of the digits after a point, and an exponent of two digits or more. -/
def withExponent (digits : List Char) (exponent : Nat) (marked : Bool) (letter : Char) :
    List Char :=
  let power := Nat.toDigits 10 exponent
  digits.take 1 ++ fraction (digits.drop 1) marked ++ [letter, '+'] ++
    List.replicate (2 - power.length) '0' ++ power

/-- `n` with an exponent and `places` digits after the point. -/
def scientific (n places : Nat) (marked : Bool) (letter : Char) : List Char :=
  let (digits, exponent) := significant n (places + 1)
  withExponent digits exponent marked letter

/-- `n` with `size` significant digits, and with an exponent only if there are more digits than that
before the point. Zeros at the end of a fraction are written only if the point is asked for. -/
def general (n size : Nat) (marked : Bool) (letter : Char) : List Char :=
  let size := max size 1
  let (digits, exponent) := significant n size
  if exponent < size then
    fixed n (if marked then size - 1 - exponent else 0) marked
  else
    let first := digits.take 1
    let rest := digits.drop 1
    let kept := if marked then rest else (rest.reverse.dropWhile (· == '0')).reverse
    withExponent (first ++ kept) exponent marked letter

end Numeral

end ArrowLang
