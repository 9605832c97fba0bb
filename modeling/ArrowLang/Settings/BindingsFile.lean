import ArrowLang.Entries
import ArrowLang.Text.Blank
import ArrowLang.Text.Newline

/-!
# ArrowLang.Settings.BindingsFile

Files of bindings. A statement is `KEY=value`, a key alone, or a comment; `export` may stand in
front.

* A key may stand in single quotes. Otherwise it ends at a blank, `=` or `#`.
* A value may stand in single or double quotes, where it may go over several lines and hold escapes.
  Otherwise it goes to the end of the line or to a `#` after a blank.
* `${NAME}` and `${NAME:-default}` in a value stand for the value of another name.

A statement that cannot be read is left out, together with the rest of the line where reading
stopped.

* `BindingsFile.load`: the bindings of a file, and the lines where unreadable statements start.
-/

namespace ArrowLang

structure BindingsFile where
  /-- the names with their values, in the order of their first binding; a key alone has no value -/
  bindings : List (String × Option String)
  /-- the lines on which unreadable statements start -/
  faults : List Nat

namespace BindingsFile

/-- A blank that does not end a line. -/
def isInlineBlank (c : Char) : Bool := Text.isBlank c && c != '\n'

/-! ## Keys and values -/

/-- Drops a leading `export`, which a blank has to follow. -/
def dropExport (cs : List Char) : List Char :=
  let rest := cs.drop 6
  if "export".toList.isPrefixOf cs && (rest.head?.map isInlineBlank).getD false then
    rest.dropWhile isInlineBlank
  else cs

/-- The quoted key at the front of `cs`, after its opening quote. -/
def readQuotedKey? (cs : List Char) : Option (List Char × List Char) :=
  match cs.takeWhile (· != '\''), cs.dropWhile (· != '\'') with
  | c :: key, _ :: rest => some (c :: key, rest)
  | _, _ => none

/-- A character of a key without quotes. -/
def isKeyChar (c : Char) : Bool := c != '=' && c != '#' && !Text.isBlank c

/-- The key at the front of `cs`, if there is one; a comment has no key. -/
def readKey? (cs : List Char) : Option (Option (List Char) × List Char) :=
  match cs with
  | '#' :: _ => some (none, cs)
  | '\'' :: rest => (readQuotedKey? rest).map fun r => (some r.1, r.2)
  | _ =>
    match cs.takeWhile isKeyChar with
    | [] => none
    | key => some (some key, cs.dropWhile isKeyChar)

/-- The text before the quote that closes a value, and the text after it. A quote after a backslash
closes the value only if no other quote does. -/
def readQuoted? (mark : Char) : List Char → Option (List Char × List Char)
  | [] => none
  | [c] => if c == mark then some ([], []) else none
  | c :: d :: cs =>
    if c == mark then some ([], d :: cs)
    else if c == '\\' && d == mark then
      match readQuoted? mark cs with
      | some (value, rest) => some (c :: d :: value, rest)
      | none => some ([c], cs)
    else (readQuoted? mark (d :: cs)).map fun r => (c :: r.1, r.2)

/-- What a character stands for after a backslash, in a value with the given quotes. -/
def unescapeChar? (mark c : Char) : Option Char :=
  if c == '\\' || c == '\'' then some c
  else if mark == '\'' then none
  else [('"', '"'), ('a', '\x07'), ('b', '\x08'), ('f', '\x0c'), ('n', '\n'), ('r', '\r'),
    ('t', '\t'), ('v', '\x0b')].lookup c

/-- The text with its escapes resolved; a backslash that starts none of them stays. -/
def unescape (mark : Char) : List Char → List Char
  | [] => []
  | [c] => [c]
  | c :: d :: cs =>
    if c == '\\' then
      match unescapeChar? mark d with
      | some e => e :: unescape mark cs
      | none => c :: unescape mark (d :: cs)
    else c :: unescape mark (d :: cs)

/-- Cuts off a comment: a `#` after a blank, and all that follows. -/
def cutComment : List Char → List Char
  | [] => []
  | [c] => [c]
  | c :: d :: cs => if Text.isBlank c && d == '#' then [] else c :: cutComment (d :: cs)

/-- The value at the front of `cs`, after the `=` and the blanks behind it. -/
def readValue? (cs : List Char) : Option (List Char × List Char) :=
  match cs with
  | [] => some ([], [])
  | c :: rest =>
    if c == '\'' || c == '"' then
      (readQuoted? c rest).map fun r => (unescape c r.1, r.2)
    else
      let bare := cs.takeWhile (· != '\n')
      some ((cutComment bare).reverse.dropWhile Text.isBlank |>.reverse, cs.dropWhile (· != '\n'))

/-! ## Statements -/

/-- What one statement says. -/
inductive Statement where
  | binding (key : String) (value : Option String)
  /-- nothing: blank lines or a comment -/
  | empty
  | unreadable

/-- Drops a comment with the blanks before it. -/
def dropComment (cs : List Char) : List Char :=
  match cs.dropWhile isInlineBlank with
  | '#' :: rest => rest.dropWhile (· != '\n')
  | _ => cs

/-- The text after the end of the line, if only blanks are left on it. -/
def endLine? (cs : List Char) : Option (List Char) :=
  match cs.dropWhile isInlineBlank with
  | [] => some []
  | '\n' :: rest => some rest
  | _ => none

/-- Drops the rest of the line. -/
def dropLine (cs : List Char) : List Char := (cs.dropWhile (· != '\n')).drop 1

/-- Reads the value of a key, if there is a `=`; then the line has to end. -/
def readRest (key : Option (List Char)) (cs : List Char) : Statement × List Char :=
  let cs := cs.dropWhile isInlineBlank
  let valued : Option (Option (List Char)) × List Char :=
    match cs with
    | '=' :: rest =>
      let rest := rest.dropWhile isInlineBlank
      match readValue? rest with
      | some (value, after) => (some (some value), after)
      | none => (none, rest)
    | _ => (some none, cs)
  match valued with
  | (none, stuck) => (.unreadable, dropLine stuck)
  | (some value, after) =>
    let after := dropComment after
    match endLine? after, key with
    | none, _ => (.unreadable, dropLine after)
    | some rest, none => (.empty, rest)
    | some rest, some key => (.binding (String.ofList key) (value.map String.ofList), rest)

/-- The statement at the front of `cs` and the text after it. -/
def readStatement (cs : List Char) : Statement × List Char :=
  match dropExport (cs.dropWhile Text.isBlank) with
  | [] => if cs.all Text.isBlank then (.empty, []) else (.unreadable, [])
  | start =>
    match readKey? start with
    | none => (.unreadable, dropLine start)
    | some (key, rest) => readRest key rest

/-- The statements of `cs`, whose first line is `line`, each with the line where it starts. -/
def readStatements (line : Nat) (cs : List Char) : List (Nat × Statement) :=
  if cs.isEmpty then []
  else
    let (statement, rest) := readStatement cs
    if rest.length < cs.length then
      let taken := cs.take (cs.length - rest.length)
      (line, statement) :: readStatements (line + taken.count '\n') rest
    else [(line, statement)]
termination_by cs.length

/-! ## Values of other names -/

/-- The name and the default in `${NAME}` or `${NAME:-default}`, after the `${`, and the text after
the `}`. -/
def readReference? (cs : List Char) : Option (String × String × List Char) :=
  let isNameChar (c : Char) := c != '\x7d' && c != ':'
  let name := String.ofList (cs.takeWhile isNameChar)
  match cs.dropWhile isNameChar with
  | '\x7d' :: rest => some (name, "", rest)
  | ':' :: '-' :: rest =>
    match rest.dropWhile (· != '\x7d') with
    | _ :: after => some (name, String.ofList (rest.takeWhile (· != '\x7d')), after)
    | [] => none
  | _ => none

/-- The text with its references replaced by what `value` gives for a name and a default. -/
def resolve (value : String → String → String) (cs : List Char) : List Char :=
  match cs with
  | '$' :: '\x7b' :: rest =>
    match readReference? rest with
    | some (name, fallback, after) =>
      if after.length ≤ rest.length then
        (value name fallback).toList ++ resolve value after
      else cs
    | none => '$' :: resolve value ('\x7b' :: rest)
  | c :: rest => c :: resolve value rest
  | [] => []
termination_by cs.length
decreasing_by all_goals simp only [List.length_cons]; omega

/-- The value of a name: first among the bindings so far, where a key alone counts as empty, then
among the variables of the process. -/
def valueOf (process : List (String × String)) (bindings : List (String × Option String))
    (name fallback : String) : String :=
  match bindings.lookup name with
  | some value => value.getD ""
  | none => (process.lookup name).getD fallback

/-- Adds what one statement says. -/
def add (process : List (String × String)) (d : BindingsFile) : Nat × Statement → BindingsFile
  | (_, .empty) => d
  | (line, .unreadable) => { d with faults := d.faults ++ [line] }
  | (_, .binding key value) =>
    let resolved := value.map fun v =>
      String.ofList (resolve (valueOf process d.bindings) v.toList)
    { d with bindings := putEntry d.bindings key resolved }

/-- Drops a byte order mark. -/
def dropMark : List Char → List Char
  | [] => []
  | c :: cs => if c.toNat = 0xfeff then cs else c :: cs

/-- The bindings of a file with the content `text`. References also see the variables `process`. -/
def load (process : List (String × String)) (text : String) : BindingsFile :=
  (readStatements 1 (dropMark (Text.unifyNewlines text).toList)).foldl (add process) ⟨[], []⟩

end BindingsFile
end ArrowLang
