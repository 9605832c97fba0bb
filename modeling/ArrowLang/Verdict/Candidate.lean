import ArrowLang.Text.Quoted
import ArrowLang.Ty
import ArrowLang.Verdict

/-!
# ArrowLang.Verdict.Candidate

Values where verdicts are expected. A candidate is a verdict or a bare value; a bare value has no
diagnostics, cannot be opened and cannot be combined.

* `Candidate.map2`: combines two verdicts and keeps the diagnostics of both. That something is no
  verdict is found out only when it is to be combined, and then both values are shown in full.
-/

namespace ArrowLang

/-- The identifier under which a code is shown in full. -/
def Code.label : Code → String
  | .conditionNotBoolean => "IF_COND_NOT_BOOLEAN"
  | .branchesDiffer => "IF_BRANCHES_MISMATCH"
  | .operandNotNumber => "RUNTIME_ADD_TYPE"
  | .unknownVariable => "UNKNOWN_VARIABLE"
  | .functionExpected => "FUNC_EXPECTED"
  | .argumentCount => "ARG_COUNT_MISMATCH"
  | .argumentType => "ARG_TYPE_MISMATCH"
  | .unreachable => "UNREACHABLE"
  | .notImplemented => "NOT_IMPLEMENTED"

/-- A location with all its fields. -/
def Location.inFull (a : Location) : String :=
  let file := match a.file with
    | some name => Text.quote name
    | none => "None"
  "Location(line=" ++ toString a.line ++ ", column=" ++ toString a.column ++ ", file=" ++ file ++
    ")"

/-- A diagnostic with all its fields. -/
def Diagnostic.inFull (d : Diagnostic) : String :=
  "Diagnostic(code=<ErrorCode." ++ d.code.label ++ ": " ++ Text.quote d.code.name ++
    ">, message=" ++ Text.quote d.message ++ ", span=Span(start=" ++ d.span.start.inFull ++
    ", end=" ++ d.span.stop.inFull ++ "))"

/-- Members in round brackets; a lone one is followed by a comma. -/
def inBrackets : List String → String
  | [member] => "(" ++ member ++ ",)"
  | members => "(" ++ ", ".intercalate members ++ ")"

def Diagnostics.inFull (ds : Diagnostics) : String :=
  inBrackets (ds.toList.map Diagnostic.inFull)

/-- A type with all its fields. -/
def Ty.inFull : Ty → String
  | .boolean => "BooleanType()"
  | .number => "NumberType()"
  | .func params ret =>
    "FunctionType(params=" ++ inBrackets (paramsInFull params) ++ ", ret=" ++ ret.inFull ++ ")"
where
  paramsInFull : List (Param Ty) → List String
    | [] => []
    | ⟨name, τ⟩ :: params =>
      ("Param(name=" ++ Text.quote name ++ ", type=" ++ τ.inFull ++ ")") :: paramsInFull params

inductive Candidate (α : Type) where
  | verdict (v : Verdict α)
  | bare (value : α)

namespace Candidate

variable {α β γ : Type}

/-- Why a candidate cannot be opened. -/
inductive Refusal where
  | rejected (ds : Diagnostics)
  | notResult

def Refusal.message : Refusal → String
  | .rejected ds => ds.render
  | .notResult => "'int' object has no attribute 'unwrap'"

/-- The value of a candidate for a number. -/
def open? : Candidate Int → Except Refusal Int
  | .verdict (.ok n) => .ok n
  | .verdict (.error ds) => .error (.rejected ds)
  | .bare _ => .error .notResult

def inFull (shown : α → String) : Candidate α → String
  | .verdict (.ok a) => "Ok(value=" ++ shown a ++ ")"
  | .verdict (.error ds) => "Err(errors=" ++ ds.inFull ++ ")"
  | .bare a => shown a

def errors : Candidate α → List Diagnostic
  | .verdict v => Verdict.errors v
  | .bare _ => []

/-- Both values combined by `f`, or the diagnostics of the left followed by those of the right. -/
def map2 (shown : α → String) (shown' : β → String) (f : α → β → γ) :
    Candidate α → Candidate β → Except Fault (Verdict γ)
  | .verdict (.ok a), .verdict (.ok b) => .ok (.ok (f a b))
  | .verdict (.error ds), .verdict (.error es) => Verdict.reject (ds.toList ++ es.toList)
  | .verdict (.error ds), .verdict (.ok _) => .ok (.error ds)
  | .verdict (.ok _), .verdict (.error es) => .ok (.error es)
  | a, b => .error (.notResults (a.inFull shown) (b.inFull shown'))

/-- Equality of verdicts and numbers; a verdict and a bare number always differ. -/
def equal : Candidate Int → Candidate Int → Bool
  | .verdict (.ok m), .verdict (.ok n) => m == n
  | .verdict (.error ds), .verdict (.error es) => decide (ds = es)
  | .bare m, .bare n => m == n
  | _, _ => false

end Candidate

end ArrowLang
