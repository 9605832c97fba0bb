import ArrowLang.Log.Format.Numeral
import ArrowLang.Text.Decimal
import ArrowLang.Text.Quoted

/-!
# ArrowLang.Log.Format

Messages with gaps. A gap is a directive: `%`, flags, a width, a precision, and a letter that tells
how its argument is written. `%%` is a percent sign. A `*` takes the width or the precision from the
arguments, too.

* `Format.pieces`: the characters and directives of a format.
* `Format.fill`: the message. Every argument has to be used, and faults show up from left to right.
-/

namespace ArrowLang

/-- What fills a gap. -/
inductive FormatArg where
  | text (s : String)
  | int (n : Int)

inductive FormatError where
  | unusedArguments
  | missingArgument
  | incomplete
  /-- a key in parentheses, though the arguments have no names -/
  | keyed
  | widthTooLarge
  | precisionTooLarge
  /-- the argument for a `*` is not an integer -/
  | sizeNotInteger
  /-- the letter at that place stands for no way of writing -/
  | unknownLetter (letter : Char) (place : Nat)
  /-- a text where a number is written in decimal -/
  | notNumber (letter : Char)
  /-- a text where an integer is written in another base -/
  | notInteger (letter : Char)
  /-- a text where a real number is written -/
  | notReal
  | notCharacter
  | noSuchCharacter
  | tooLargeForReal
  deriving DecidableEq

/-- The letter as it is shown; one that is not printable ASCII is shown as `?`. -/
def FormatError.shownLetter (letter : Char) : Char :=
  if 31 ≤ letter.toNat && letter.toNat < 127 then letter else '?'

def FormatError.message : FormatError → String
  | .unusedArguments => "not all arguments converted during string formatting"
  | .missingArgument => "not enough arguments for format string"
  | .incomplete => "incomplete format"
  | .keyed => "format requires a mapping"
  | .widthTooLarge => "width too big"
  | .precisionTooLarge => "precision too big"
  | .sizeNotInteger => "* wants int"
  | .unknownLetter letter place =>
    "unsupported format character '" ++ String.singleton (shownLetter letter) ++ "' (0x" ++
      String.ofList (Nat.toDigits 16 letter.toNat) ++ ") at index " ++ toString place
  | .notNumber letter =>
    "%" ++ String.singleton letter ++ " format: a real number is required, not str"
  | .notInteger letter =>
    "%" ++ String.singleton letter ++ " format: an integer is required, not str"
  | .notReal => "must be real number, not str"
  | .notCharacter => "%c requires int or char"
  | .noSuchCharacter => "%c arg not in range(0x110000)"
  | .tooLargeForReal => "int too large to convert to float"

namespace Format

/-- A width or a precision. -/
inductive Size where
  | absent
  | given (n : Nat)
  /-- `*`: the next argument -/
  | argument

structure Directive where
  flags : FormatFlags
  width : Size
  precision : Size
  /-- the letter and its place in the format, unless the format ends before it -/
  letter : Option (Char × Nat)

inductive Piece where
  | char (c : Char)
  | directive (d : Directive)
  /-- a key in parentheses -/
  | keyed

/-! ## Reading -/

def isFlag (c : Char) : Bool := c == '-' || c == '+' || c == ' ' || c == '#' || c == '0'

def flagsOf (cs : List Char) : FormatFlags :=
  ⟨cs.contains '-', cs.contains '+', cs.contains ' ', cs.contains '#', cs.contains '0'⟩

/-- A width at the front of `cs`, and the text after it. -/
def readSize (cs : List Char) : Size × List Char :=
  match cs with
  | '*' :: rest => (.argument, rest)
  | _ =>
    match cs.takeWhile Char.isDigit with
    | [] => (.absent, cs)
    | digits => (.given (decimalValue digits), cs.dropWhile Char.isDigit)

/-- A precision at the front of `cs`, and the text after it. A point alone stands for zero. -/
def readPrecision (cs : List Char) : Size × List Char :=
  match cs with
  | '.' :: rest =>
    match readSize rest with
    | (.absent, rest) => (.given 0, rest)
    | read => read
  | _ => (.absent, cs)

/-- Drops a letter that tells the size of an argument; arguments have one size only. -/
def dropModifier : List Char → List Char
  | [] => []
  | c :: cs => if c == 'h' || c == 'l' || c == 'L' then cs else c :: cs

/-- The directive at the front of `cs`, after its `%`, in a format of `total` characters. -/
def readDirective (total : Nat) (cs : List Char) : Directive × List Char :=
  let (width, rest) := readSize (cs.dropWhile isFlag)
  let (precision, rest) := readPrecision rest
  let rest := dropModifier rest
  (⟨flagsOf (cs.takeWhile isFlag), width, precision,
    rest.head?.map fun letter => (letter, total - rest.length)⟩, rest.drop 1)

/-- The pieces of `cs`, which ends a format of `total` characters. -/
def piecesFrom (total : Nat) (cs : List Char) : List Piece :=
  match cs with
  | [] => []
  | c :: rest =>
    if c != '%' then .char c :: piecesFrom total rest
    else if rest.head? == some '%' then .char '%' :: piecesFrom total (rest.drop 1)
    else if rest.head? == some '(' then [.keyed]
    else
      let (directive, after) := readDirective total rest
      if after.length ≤ rest.length then .directive directive :: piecesFrom total after
      else [.directive directive]
termination_by cs.length
decreasing_by all_goals simp only [List.length_cons, List.length_drop]; omega

def pieces (cs : List Char) : List Piece := piecesFrom cs.length cs

/-! ## Writing -/

/-- Text in a field of at least `width` characters. -/
def layText (cs : List Char) (flags : FormatFlags) (width : Nat) : List Char :=
  let gap := List.replicate (width - cs.length) ' '
  if flags.left then cs ++ gap else gap ++ cs

/-- The argument as plain text. -/
def plainText : FormatArg → List Char
  | .text s => s.toList
  | .int n => (toString n).toList

/-- The argument with text in quotes. -/
def quotedText : FormatArg → List Char
  | .text s => (Text.quote s).toList
  | .int n => (toString n).toList

/-- The argument with text in quotes and only ASCII characters. -/
def asciiText (arg : FormatArg) : List Char :=
  (quotedText arg).flatMap fun c => if c.toNat < 128 then [c] else Text.hexEscape c

/-- The argument as a single character. -/
def character : FormatArg → Except FormatError (List Char)
  | .text s =>
    match s.toList with
    | [c] => .ok [c]
    | _ => .error .notCharacter
  | .int n => if 0 ≤ n ∧ n < 0x110000 then .ok [Char.ofNat n.toNat] else .error .noSuchCharacter

/-- The integer in the way that `letter` tells. -/
def integer (flags : FormatFlags) (precision : Option Nat) (letter : Char) (n : Int) : Numeral :=
  let least := precision.getD 0
  let mark := if flags.marked then ['0', letter] else []
  match letter with
  | 'o' => .ofInt n 8 least mark
  | 'x' => .ofInt n 16 least mark
  | 'X' =>
    let numeral := Numeral.ofInt n 16 least mark
    { numeral with digits := numeral.digits.map Char.toUpper }
  | _ => .ofInt n 10 least []

/-- The integer as a real number, in the way that `letter` tells. -/
def real (flags : FormatFlags) (precision : Option Nat) (letter : Char) (n : Int) :
    Except FormatError Numeral :=
  let size := Numeral.toDouble n.natAbs
  let places := precision.getD 6
  let exponent := if letter.isUpper then 'E' else 'e'
  if Numeral.doubleLimit ≤ size then .error .tooLargeForReal
  else
    .ok ⟨decide (n < 0), [],
      match letter.toLower with
      | 'f' => Numeral.fixed size places flags.marked
      | 'e' => Numeral.scientific size places flags.marked exponent
      | _ => Numeral.general size places flags.marked exponent⟩

/-- The argument in the way that the letter at `place` tells. -/
def convert (flags : FormatFlags) (width : Nat) (precision : Option Nat) (letter : Char)
    (place : Nat) (arg : FormatArg) : Except FormatError (List Char) :=
  let text (cs : List Char) := layText ((precision.map cs.take).getD cs) flags width
  if letter == 's' then .ok (text (plainText arg))
  else if letter == 'r' then .ok (text (quotedText arg))
  else if letter == 'a' then .ok (text (asciiText arg))
  else if letter == 'c' then (character arg).map fun cs => layText cs flags width
  else if ['d', 'i', 'u', 'o', 'x', 'X'].contains letter then
    match arg with
    | .int n => .ok ((integer flags precision letter n).layout flags width)
    | .text _ =>
      .error (if ['o', 'x', 'X'].contains letter then .notInteger letter else .notNumber letter)
  else if ['e', 'E', 'f', 'F', 'g', 'G'].contains letter then
    match arg with
    | .int n => (real flags precision letter n).map fun r => r.layout flags width
    | .text _ => .error .notReal
  else .error (.unknownLetter letter place)

/-- The largest width. -/
def maxWidth : Nat := Nat.pow 2 63 - 1

/-- The largest precision. -/
def maxPrecision : Nat := Nat.pow 2 31 - 1

/-- A width or a precision, and the arguments that are left. -/
def Size.resolve (s : Size) (limit : Nat) (tooLarge : FormatError) (args : List FormatArg) :
    Except FormatError (Option Int × List FormatArg) :=
  match s, args with
  | .absent, _ => .ok (none, args)
  | .given n, _ => if n ≤ limit then .ok (some n, args) else .error tooLarge
  | .argument, .int n :: args => .ok (some n, args)
  | .argument, .text _ :: _ => .error .sizeNotInteger
  | .argument, [] => .error .missingArgument

/-- What a directive writes, and the arguments that are left. A negative width moves the field's
content to the left. -/
def Directive.write (d : Directive) (args : List FormatArg) :
    Except FormatError (List Char × List FormatArg) := do
  let (width, args) ← d.width.resolve maxWidth .widthTooLarge args
  let (precision, args) ← d.precision.resolve maxPrecision .precisionTooLarge args
  let width := width.getD 0
  let flags := { d.flags with left := d.flags.left || decide (width < 0) }
  match d.letter, args with
  | none, _ => .error .incomplete
  | some _, [] => .error .missingArgument
  | some (letter, place), arg :: args => do
    let written ← convert flags width.natAbs (precision.map Int.toNat) letter place arg
    .ok (written, args)

/-- Writes the pieces in turn. -/
def writeAll : List Piece → List FormatArg → Except FormatError (List Char)
  | [], [] => .ok []
  | [], _ :: _ => .error .unusedArguments
  | .char c :: ps, args => (writeAll ps args).map (c :: ·)
  | .keyed :: _, _ => .error .keyed
  | .directive d :: ps, args => do
    let (written, args) ← d.write args
    let rest ← writeAll ps args
    .ok (written ++ rest)

/-- The message that the format makes of its arguments. -/
def fill (format : String) (args : List FormatArg) : Except FormatError String :=
  (writeAll (pieces format.toList) args).map String.ofList

end Format

end ArrowLang
