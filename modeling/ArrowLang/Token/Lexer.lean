import ArrowLang.Text.WordChar
import ArrowLang.Token

/-!
# ArrowLang.Token.Lexer

From text to tokens. Between tokens stand blanks (space, tab, form feed, carriage return, line feed)
and comments, which run from `//` up to the end of the line. Names and integers are as long as they
can be. A keyword is taken only where no word character follows it, and then it wins over a name:
`true$` is a keyword and the name `$`, while `truer` is one name.

* `Token.read?`: the token at the front of a text.
* `Scan.ofText`: all lexemes of a text, up to its end or to a character that starts none.

These functions take the place of a lexer that is generated from patterns. What they say beyond the
patterns are facts about such a lexer:

* Of the patterns that match at a place, it takes the first. Those with no bound on their length
  come before those that are spelled out, and of these the longer ones come first. So a name is
  tried before a keyword, and `=>` before `=`.
* The pattern of names looks ahead and passes over a keyword with no word character behind it, while
  the pattern of a keyword looks no further than its own letters (`Token.readWord`).
* It reads on only when asked for one more token. All tokens of a text are listed here, and how the
  scan ends matters once all of them have been taken.
-/

namespace ArrowLang

/-- A character that separates tokens. -/
def isLayout (c : Char) : Bool :=
  c == ' ' || c == '\t' || c == '\x0c' || c == '\r' || c == '\n'

/-- A character that a name can start with. -/
def isNameStart (c : Char) : Bool := c.isAlpha || c == '_' || c == '$'

/-- A character that a name can go on with. -/
def isNameChar (c : Char) : Bool := c.isAlphanum || c == '_' || c == '$'

/-- No word goes on at the front of `cs`. -/
def wordEnds : List Char → Bool
  | [] => true
  | c :: _ => !Text.isWordChar c

/-- The keyword stands at the front of `cs`, as a word of its own. -/
def Keyword.standsAt (k : Keyword) (cs : List Char) : Bool :=
  k.text.toList.isPrefixOf cs && wordEnds (cs.drop k.text.length)

/-- The keyword or name at the front of `cs`, which starts like a name, and the text after it. -/
def Token.readWord (cs : List Char) : Token × List Char :=
  match Keyword.all.find? (·.standsAt cs) with
  | some k => (.keyword k, cs.drop k.text.length)
  | none => (.name (String.ofList (cs.takeWhile isNameChar)), cs.dropWhile isNameChar)

/-- The token at the front of `cs` and the text after it. -/
def Token.read? (cs : List Char) : Option (Token × List Char) :=
  match cs with
  | [] => none
  | '=' :: '>' :: rest => some (.symbol .arrow, rest)
  | c :: rest =>
    if c.isDigit then
      some (.int (String.ofList (cs.takeWhile Char.isDigit)), cs.dropWhile Char.isDigit)
    else if isNameStart c then some (Token.readWord cs)
    else (Symbol.ofChar? c).map fun s => (.symbol s, rest)

theorem length_dropWhile_cons_lt {p : Char → Bool} {c : Char} (cs : List Char) (h : p c = true) :
    ((c :: cs).dropWhile p).length < (c :: cs).length := by
  have := (List.dropWhile_sublist p (l := cs)).length_le
  simp [h]
  omega

theorem isNameChar_of_isNameStart {c : Char} (h : isNameStart c = true) : isNameChar c = true := by
  simp [isNameStart, isNameChar, Char.isAlphanum] at h ⊢
  rcases h with (h | h) | h <;> simp [h]

theorem Keyword.length_text_pos (k : Keyword) : 0 < k.text.length := by
  cases k <;> decide

theorem Token.length_readWord_lt {c : Char} (cs : List Char) (h : isNameStart c = true) :
    (readWord (c :: cs)).2.length < (c :: cs).length := by
  unfold readWord
  split
  · rename_i k _
    have := k.length_text_pos
    simp only [List.length_drop, List.length_cons]
    omega
  · exact length_dropWhile_cons_lt cs (isNameChar_of_isNameStart h)

/-- A token takes up at least one character. -/
theorem Token.length_read?_lt {cs rest : List Char} {t : Token} (h : read? cs = some (t, rest)) :
    rest.length < cs.length := by
  unfold read? at h
  split at h
  · cases h
  · cases h; simp only [List.length_cons]; omega
  · rename_i c cs _
    split at h
    · rename_i hd; cases h; exact length_dropWhile_cons_lt cs hd
    · split at h
      · rename_i hn
        have := length_readWord_lt cs hn
        rw [Option.some.inj h] at this
        exact this
      · cases hs : Symbol.ofChar? c with
        | none => simp [hs] at h
        | some s => simp [hs] at h; simp [← h.2]

/-- Where a scan ends: at the end of the text, or at a character that starts no token. -/
inductive ScanEnd where
  | textEnd (pos : Position)
  | stuck (c : Char) (pos : Position)

structure Scan where
  lexemes : List Lexeme
  ending : ScanEnd

namespace Scan

/-- Scans `cs`, which starts at `p`. The lexemes read so far are in `seen`, the newest first. -/
def onto (seen : List Lexeme) (p : Position) (cs : List Char) : Scan :=
  match cs with
  | [] => ⟨seen.reverse, .textEnd p⟩
  | '/' :: '/' :: rest =>
    onto seen (p.advanceAll ('/' :: '/' :: rest.takeWhile (· != '\n'))) (rest.dropWhile (· != '\n'))
  | c :: rest =>
    if isLayout c then onto seen (p.advance c) rest
    else
      match _h : Token.read? (c :: rest) with
      | none => ⟨seen.reverse, .stuck c p⟩
      | some (token, rest') =>
        let stop := p.advanceAll token.text.toList
        onto (⟨token, p, stop⟩ :: seen) stop rest'
termination_by cs.length
decreasing_by
  · have := (List.dropWhile_sublist (· != '\n') (l := rest)).length_le
    simp; omega
  · simp
  · exact Token.length_read?_lt _h

/-- The lexemes of a text. -/
def ofText (text : String) : Scan := onto [] .origin text.toList

end Scan

end ArrowLang
