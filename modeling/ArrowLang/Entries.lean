/-!
# ArrowLang.Entries

Keys with values, each key once, in the order in which the keys were first entered.
-/

namespace ArrowLang

variable {κ α : Type} [BEq κ]

/-- Enters `value` under `key`. A key that is entered already keeps its place. -/
def putEntry (entries : List (κ × α)) (key : κ) (value : α) : List (κ × α) :=
  if entries.any fun e => e.1 == key then
    entries.map fun e => if e.1 == key then (e.1, value) else e
  else entries ++ [(key, value)]

end ArrowLang
