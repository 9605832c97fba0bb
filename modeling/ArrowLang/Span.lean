/-!
# ArrowLang.Span

Places in a source text.

* `Location`: a line, a column and the file they count in. Lines count from one, columns from zero.
* `Span`: the stretch between two locations, shown as `file:line:column-line:column` with columns
  counted from one.

Locations are ordered by line and then by column; the file plays no part in the order.
-/

namespace ArrowLang

/-- The name shown for text that has no file of its own. -/
def defaultSource : String := "<stdin>"

/-- The name shown for a file: a missing name and an empty one both give `defaultSource`. -/
def sourceName : Option String → String
  | some name => if name.isEmpty then defaultSource else name
  | none => defaultSource

structure Location where
  line : Int
  column : Int
  file : Option String
  deriving DecidableEq

namespace Location

instance : LE Location where
  le a b := a.line < b.line ∨ (a.line = b.line ∧ a.column ≤ b.column)

instance : LT Location where
  lt a b := a.line < b.line ∨ (a.line = b.line ∧ a.column < b.column)

instance (a b : Location) : Decidable (a ≤ b) :=
  inferInstanceAs (Decidable (a.line < b.line ∨ (a.line = b.line ∧ a.column ≤ b.column)))

instance (a b : Location) : Decidable (a < b) :=
  inferInstanceAs (Decidable (a.line < b.line ∨ (a.line = b.line ∧ a.column < b.column)))

/-- `line:column`, the column counted from one. -/
def coordinates (a : Location) : String :=
  toString a.line ++ ":" ++ toString (a.column + 1)

def render (a : Location) : String :=
  sourceName a.file ++ ":" ++ a.coordinates

end Location

structure Span where
  start : Location
  stop : Location
  deriving DecidableEq

namespace Span

/-- The span of what was built without a source text. -/
def unknown : Span := ⟨⟨0, 0, none⟩, ⟨0, 0, none⟩⟩

/-- The file of a span is the one it starts in. -/
def file (s : Span) : String := sourceName s.start.file

/-- `t` lies within `s`. -/
def encloses (s t : Span) : Bool :=
  decide (s.start ≤ t.start) && decide (t.stop ≤ s.stop)

def render (s : Span) : String :=
  s.file ++ ":" ++ s.start.coordinates ++ "-" ++ s.stop.coordinates

end Span

end ArrowLang
