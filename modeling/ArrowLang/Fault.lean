import ArrowLang.Span

/-!
# ArrowLang.Fault

Faults: states that the library's own invariants rule out. A fault tells of a malformed value
handed in from outside, never of a program that is ill-typed.
-/

namespace ArrowLang

inductive Fault where
  /-- A span was asked for that ends before it starts. -/
  | reversedSpan (start stop : Location)
  /-- A term has a node of a variant that the language does not have. -/
  | unknownTerm (variant : String)
  /-- A walk over a term ended with a number of results other than one. -/
  | unbalancedWalk (results : Nat)
  /-- What was to run is not a computation but the value shown. -/
  | notComputation (shown : String)
  /-- A failed result was asked for without a diagnostic. -/
  | emptyResult
  /-- An error report was asked for without a diagnostic. -/
  | emptyReport
  /-- Two values were to be combined that are not both results. -/
  | notResults (left right : String)
  /-- A place was reached that its author took to be unreachable. -/
  | reached (detail : String)
  deriving DecidableEq

namespace Fault

def detail : Fault → String
  | .reversedSpan start stop =>
    "span ends before it starts: " ++ start.render ++ "-" ++ stop.render
  | .unknownTerm variant => "unknown term: " ++ variant
  | .unbalancedWalk results => "walk finished with " ++ toString results ++ " results"
  | .notComputation shown => "not a computation: " ++ shown
  | .emptyResult => "Err needs at least one diagnostic"
  | .emptyReport => "TypeCheckError needs at least one diagnostic"
  | .notResults left right => "map2 on non-results: " ++ left ++ ", " ++ right
  | .reached detail => detail

def message (f : Fault) : String :=
  if f.detail.isEmpty then "unreachable" else "unreachable: " ++ f.detail

end Fault

/-- The span between two locations, which has to end no earlier than it starts. -/
def Span.between (start stop : Location) : Except Fault Span :=
  if start ≤ stop then .ok ⟨start, stop⟩ else .error (.reversedSpan start stop)

theorem Span.between_of_le {start stop : Location} (h : start ≤ stop) :
    between start stop = .ok ⟨start, stop⟩ := if_pos h

end ArrowLang
