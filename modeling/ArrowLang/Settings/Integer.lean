import ArrowLang.Text.Blank
import ArrowLang.Text.Decimal

/-!
# ArrowLang.Settings.Integer

Integers in text. White space around the digits, one `+`, zeros in front, single underscores between
digits and a fraction of zeros are all allowed. The text is cleaned of these in turn and then has to
be decimal digits with or without a `-`.
-/

namespace ArrowLang

/-- The longest text that is read as an integer once it is cleaned, in bytes. -/
def maxIntegerSize : Nat := 4300

inductive IntegerError where
  | notInteger
  | tooLong
  deriving DecidableEq

namespace IntegerText

/-- A character that ends the zeros in front of a number and is kept: a digit, or a sign. -/
def startsNumber (c : Char) : Bool := (c.isDigit && c != '0') || c == '-'

/-- Goes on after the zero or underscore `last` among those that a text starts with. The last of
them is kept if nothing or a fraction follows. -/
def cutZerosAfter (last : Char) : List Char → Option (List Char)
  | [] => some [last]
  | c :: cs =>
    if c == '0' || c == '_' then cutZerosAfter c cs
    else if startsNumber c then some (c :: cs)
    else if c == '.' then some (last :: c :: cs)
    else none

/-- Cuts off the zeros that a text starts with, along with the underscores among them. -/
def cutZeros : List Char → Option (List Char)
  | [] => none
  | c :: cs =>
    if c == '0' then cutZerosAfter c cs
    else if startsNumber c then some (c :: cs)
    else none

/-- Cuts off one `+`, which no `-` may follow. -/
def cutPlus : List Char → Option (List Char)
  | '+' :: '-' :: _ => none
  | '+' :: cs => some cs
  | cs => some cs

/-- Cuts off a fraction that consists of zeros, of at least one. -/
def cutFraction (cs : List Char) : List Char :=
  match cs.dropWhile (· != '.') with
  | '.' :: '0' :: zeros => if zeros.all (· == '0') then cs.takeWhile (· != '.') else cs
  | _ => cs

/-- Takes out the underscores, unless one of them stands at an end or beside another. -/
def cutUnderscores (cs : List Char) : List Char :=
  if (cs.splitOn '_').all fun group => !group.isEmpty then cs.filter (· != '_') else cs

/-- The text without all that may stand around and between the digits. -/
def clean (cs : List Char) : Option (List Char) :=
  ((cutPlus (Text.trimChars Text.isWhiteSpace cs)).bind cutZeros).map fun cs =>
    cutUnderscores (cutFraction cs)

/-- The number that digits stand for, if there is a digit and nothing else. -/
def digits? (cs : List Char) : Option Nat :=
  if !cs.isEmpty && cs.all Char.isDigit then some (decimalValue cs) else none

/-- The integer that cleaned text stands for. -/
def value? : List Char → Option Int
  | '-' :: cs => (digits? cs).map fun n => -(n : Int)
  | cs => (digits? cs).map fun n => (n : Int)

end IntegerText

/-- The integer that a text stands for. -/
def readInteger (s : String) : Except IntegerError Int :=
  match IntegerText.clean s.toList with
  | none => .error .notInteger
  | some cs =>
    if maxIntegerSize < (String.ofList cs).utf8ByteSize then .error .tooLong
    else
      match IntegerText.value? cs with
      | some n => .ok n
      | none => .error .notInteger

end ArrowLang
