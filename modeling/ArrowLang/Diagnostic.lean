import ArrowLang.Fault

/-!
# ArrowLang.Diagnostic

What the checker tells its user.

* `Code`: the kinds of diagnostic, each with its name and its standard message.
* `Diagnostic`: a kind, a message and the span they are about.
* `Diagnostics`: one diagnostic or more, in evaluation order. There is no empty report.
-/

namespace ArrowLang

inductive Code where
  | conditionNotBoolean
  | branchesDiffer
  | operandNotNumber
  | unknownVariable
  | functionExpected
  | argumentCount
  | argumentType
  | unreachable
  | notImplemented
  deriving DecidableEq

namespace Code

def all : List Code :=
  [.conditionNotBoolean, .branchesDiffer, .operandNotNumber, .unknownVariable, .functionExpected,
    .argumentCount, .argumentType, .unreachable, .notImplemented]

def name : Code → String
  | .conditionNotBoolean => "IfCondNotBoolean"
  | .branchesDiffer => "IfBranchesMismatch"
  | .operandNotNumber => "RuntimeAddType"
  | .unknownVariable => "UnknownVariable"
  | .functionExpected => "FuncExpected"
  | .argumentCount => "ArgCountMismatch"
  | .argumentType => "ArgTypeMismatch"
  | .unreachable => "Unreachable"
  | .notImplemented => "NotImplemented"

/-- The code of that name, if there is one. -/
def ofName? (name : String) : Option Code :=
  all.find? fun c => c.name == name

/-- The standard message. -/
def message : Code → String
  | .conditionNotBoolean => "boolean expected"
  | .branchesDiffer => "then and else have different types"
  | .operandNotNumber => "number expected"
  | .unknownVariable => "unknown variable"
  | .functionExpected => "function expected"
  | .argumentCount => "number of arguments mismatch"
  | .argumentType => "parameter type mismatch"
  | .unreachable => "unreachable"
  | .notImplemented => "not implemented yet"

end Code

structure Diagnostic where
  code : Code
  message : String
  span : Span
  deriving DecidableEq

namespace Diagnostic

/-- The diagnostic with the standard message of `code`, followed by the detail unless it is
missing or empty. -/
def ofCode (code : Code) (span : Span) (detail : Option String := none) : Diagnostic :=
  match detail with
  | some d => ⟨code, if d.isEmpty then code.message else code.message ++ ": " ++ d, span⟩
  | none => ⟨code, code.message, span⟩

def render (d : Diagnostic) : String :=
  d.span.render ++ " " ++ d.message

end Diagnostic

/-- One diagnostic or more. -/
structure Diagnostics where
  first : Diagnostic
  rest : List Diagnostic
  deriving DecidableEq

namespace Diagnostics

def single (d : Diagnostic) : Diagnostics := ⟨d, []⟩

def toList (ds : Diagnostics) : List Diagnostic := ds.first :: ds.rest

def ofList? : List Diagnostic → Option Diagnostics
  | [] => none
  | d :: ds => some ⟨d, ds⟩

/-- The diagnostics of `as`, then those of `bs`. -/
def append (as bs : Diagnostics) : Diagnostics := ⟨as.first, as.rest ++ bs.toList⟩

/-- One line per diagnostic. -/
def render (ds : Diagnostics) : String :=
  "\n".intercalate (ds.toList.map Diagnostic.render)

@[simp] theorem toList_append (as bs : Diagnostics) :
    (as.append bs).toList = as.toList ++ bs.toList := rfl

@[simp] theorem ofList?_toList (ds : Diagnostics) : ofList? ds.toList = some ds := rfl

end Diagnostics

end ArrowLang
