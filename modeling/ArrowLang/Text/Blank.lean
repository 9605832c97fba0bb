/-!
# ArrowLang.Text.Blank

Blank characters of any script, and text without the blanks at its ends.
-/

namespace ArrowLang
namespace Text

/-- White space of any script. -/
def isWhiteSpace (c : Char) : Bool :=
  let n := c.toNat
  (decide (0x09 ≤ n) && decide (n ≤ 0x0d)) || n == 0x20 || n == 0x85 || n == 0xa0 || n == 0x1680 ||
    (decide (0x2000 ≤ n) && decide (n ≤ 0x200a)) || n == 0x2028 || n == 0x2029 || n == 0x202f ||
    n == 0x205f || n == 0x3000

/-- White space, or one of the four separator controls. -/
def isBlank (c : Char) : Bool :=
  isWhiteSpace c || (decide (0x1c ≤ c.toNat) && decide (c.toNat ≤ 0x1f))

/-- `cs` without the characters of the class `p` at its two ends. -/
def trimChars (p : Char → Bool) (cs : List Char) : List Char :=
  ((cs.dropWhile p).reverse.dropWhile p).reverse

end Text
end ArrowLang
