import ArrowLang.Text.Printable

/-!
# ArrowLang.Text.Quoted

Quoted text for messages. The text stands between single quotes, or between double quotes when it
holds a single quote and no double one. The quote in use and the backslash are escaped, and what
cannot be shown is written by its code point: `\t`, `\n`, `\r`, else `\x`, `\u` or `\U` with two,
four or eight hexadecimal digits.
-/

namespace ArrowLang
namespace Text

/-- The last `width` hexadecimal digits of `n`, in lower case, with leading zeros. -/
def hexDigits : Nat → Nat → List Char
  | 0, _ => []
  | width + 1, n => hexDigits width (n / 16) ++ [Nat.digitChar (n % 16)]

/-- The code point of `c` in the shortest of the three hexadecimal forms. -/
def hexEscape (c : Char) : List Char :=
  if c.toNat < 0x100 then '\\' :: 'x' :: hexDigits 2 c.toNat
  else if c.toNat < 0x10000 then '\\' :: 'u' :: hexDigits 4 c.toNat
  else '\\' :: 'U' :: hexDigits 8 c.toNat

/-- `c` as it is written between two `mark`s. -/
def escapeChar (mark c : Char) : List Char :=
  if c == mark || c == '\\' then ['\\', c]
  else if c == '\t' then ['\\', 't']
  else if c == '\n' then ['\\', 'n']
  else if c == '\r' then ['\\', 'r']
  else if isPrintable c then [c]
  else hexEscape c

/-- The quotation mark for `cs`: double only to spare a single one from being escaped. -/
def quoteMark (cs : List Char) : Char :=
  if cs.contains '\'' && !cs.contains '"' then '"' else '\''

/-- `s` in quotes. -/
def quote (s : String) : String :=
  let mark := quoteMark s.toList
  String.ofList (mark :: s.toList.flatMap (escapeChar mark) ++ [mark])

end Text
end ArrowLang
