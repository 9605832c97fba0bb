/-!
# ArrowLang.Text.Ranges

Character classes given as tables of code point ranges.
-/

namespace ArrowLang
namespace Text

/-- `c` lies in one of the closed ranges of `table`. -/
def inRanges (table : List (Nat × Nat)) (c : Char) : Bool :=
  table.any fun r => decide (r.1 ≤ c.toNat) && decide (c.toNat ≤ r.2)

end Text
end ArrowLang
