/-!
# ArrowLang.Text.ControlSequence

Text for outputs that are no terminals: the sequences that steer a terminal are taken out. Such a
sequence is an escape, `[`, any number of digits, `;` and `?`, and a letter.
-/

namespace ArrowLang
namespace Text

/-- The text after the control sequence at the front of `cs`. -/
def controlSequence? (cs : List Char) : Option (List Char) :=
  match cs with
  | '\x1b' :: '[' :: rest =>
    match rest.dropWhile fun c => c.isDigit || c == ';' || c == '?' with
    | c :: after => if c.isAlpha then some after else none
    | [] => none
  | _ => none

/-- `cs` without its control sequences. -/
def dropControls (cs : List Char) : List Char :=
  match cs with
  | [] => []
  | c :: rest =>
    match controlSequence? (c :: rest) with
    | some after => if after.length ≤ rest.length then dropControls after else []
    | none => c :: dropControls rest
termination_by cs.length
decreasing_by all_goals simp; try omega

/-- `s` without its control sequences. -/
def plain (s : String) : String := String.ofList (dropControls s.toList)

end Text
end ArrowLang
