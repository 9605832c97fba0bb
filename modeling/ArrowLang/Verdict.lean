import ArrowLang.Diagnostic

/-!
# ArrowLang.Verdict

The verdict on a program: a value, or the diagnostics that speak against it.

* `Verdict.reject`: the verdict against a program. That it has a diagnostic is checked when it is
  made.
* `Verdict.errors`: the diagnostics of a verdict, none for a value.
-/

namespace ArrowLang

abbrev Verdict (α : Type) := Except Diagnostics α

namespace Verdict

variable {α : Type}

/-- The verdict against a program with the given diagnostics, of which there has to be one. -/
def reject (ds : List Diagnostic) : Except Fault (Verdict α) :=
  match Diagnostics.ofList? ds with
  | some ds => .ok (.error ds)
  | none => .error .emptyResult

/-- One diagnostic is enough. -/
@[simp] theorem reject_cons (d : Diagnostic) (ds : List Diagnostic) :
    (reject (d :: ds) : Except Fault (Verdict α)) = .ok (.error ⟨d, ds⟩) := rfl

def errors : Verdict α → List Diagnostic
  | .ok _ => []
  | .error ds => ds.toList

end Verdict

/-- An error report to raise, which has to hold a diagnostic. -/
def Diagnostics.report (ds : List Diagnostic) : Except Fault Diagnostics :=
  match Diagnostics.ofList? ds with
  | some ds => .ok ds
  | none => .error .emptyReport

/-- Reports `code` at once. A place that should not have been reached is a fault, told by its
detail or else by its span; all other codes give a diagnostic. -/
def Diagnostic.raise (code : Code) (span : Span) (detail : Option String) :
    Except Fault Diagnostics :=
  match code with
  | .unreachable =>
    match detail with
    | some d => .error (.reached (if d.isEmpty then span.render else d))
    | none => .error (.reached span.render)
  | code => .ok (.single (.ofCode code span detail))

end ArrowLang
