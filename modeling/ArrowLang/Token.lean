import ArrowLang.Span

/-!
# ArrowLang.Token

The tokens of program text.

* `Position`: a place in a text, its line counted from one and its column from zero. Only a line
  feed ends a line, and a column is one code point.
* `Token`: a name, an integer literal, a keyword or a symbol.
* `Lexeme`: a token with the stretch of text it was read from.
-/

namespace ArrowLang

structure Position where
  line : Nat
  column : Nat
  deriving DecidableEq

namespace Position

/-- The start of a text. -/
def origin : Position := ⟨1, 0⟩

/-- The position after the character `c` at `p`. -/
def advance (p : Position) (c : Char) : Position :=
  if c = '\n' then ⟨p.line + 1, 0⟩ else ⟨p.line, p.column + 1⟩

/-- The position after the text `cs` at `p`. -/
def advanceAll (p : Position) (cs : List Char) : Position :=
  cs.foldl advance p

/-- The end of the text `cs`, counted afresh: one line more than there are line feeds, and the
characters since the last of them. -/
def after (cs : List Char) : Position :=
  ⟨1 + cs.count '\n', (cs.reverse.takeWhile (· != '\n')).length⟩

/-- The position as a location in the text named `source`. -/
def locate (source : String) (p : Position) : Location :=
  ⟨p.line, p.column, some source⟩

/-- The span from `p` to `q` in the text named `source`. -/
def spanTo (source : String) (p q : Position) : Span :=
  ⟨p.locate source, q.locate source⟩

end Position

inductive Keyword where
  | trueLit
  | falseLit
  | const
  | boolean
  | number
  deriving DecidableEq

namespace Keyword

def all : List Keyword := [.trueLit, .falseLit, .const, .boolean, .number]

def text : Keyword → String
  | .trueLit => "true"
  | .falseLit => "false"
  | .const => "const"
  | .boolean => "boolean"
  | .number => "number"

end Keyword

inductive Symbol where
  | arrow
  | semicolon
  | equals
  | question
  | colon
  | openParen
  | closeParen
  | plus
  | comma
  deriving DecidableEq

namespace Symbol

def text : Symbol → String
  | .arrow => "=>"
  | .semicolon => ";"
  | .equals => "="
  | .question => "?"
  | .colon => ":"
  | .openParen => "("
  | .closeParen => ")"
  | .plus => "+"
  | .comma => ","

/-- The symbol that `c` is by itself. -/
def ofChar? : Char → Option Symbol
  | ';' => some .semicolon
  | '=' => some .equals
  | '?' => some .question
  | ':' => some .colon
  | '(' => some .openParen
  | ')' => some .closeParen
  | '+' => some .plus
  | ',' => some .comma
  | _ => none

end Symbol

inductive Token where
  | name (text : String)
  | int (digits : String)
  | keyword (k : Keyword)
  | symbol (s : Symbol)
  deriving DecidableEq

def Token.text : Token → String
  | .name text => text
  | .int digits => digits
  | .keyword k => k.text
  | .symbol s => s.text

structure Lexeme where
  token : Token
  start : Position
  stop : Position
  deriving DecidableEq

end ArrowLang
