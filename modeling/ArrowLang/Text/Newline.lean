/-!
# ArrowLang.Text.Newline

Text with one kind of line end.
-/

namespace ArrowLang
namespace Text

/-- Writes every line end as a line feed: a carriage return, alone or before a line feed, is one.
The characters before `cs` are in `written`, the last one first. -/
def unifyOnto (written : List Char) : List Char → List Char
  | [] => written.reverse
  | '\r' :: '\n' :: cs => unifyOnto ('\n' :: written) cs
  | '\r' :: cs => unifyOnto ('\n' :: written) cs
  | c :: cs => unifyOnto (c :: written) cs

/-- `s` with a line feed for every line end. -/
def unifyNewlines (s : String) : String := String.ofList (unifyOnto [] s.toList)

end Text
end ArrowLang
