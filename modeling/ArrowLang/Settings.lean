import ArrowLang.Checker
import ArrowLang.Settings.BindingsFile
import ArrowLang.Settings.Integer
import ArrowLang.Text.LetterCase

/-!
# ArrowLang.Settings

The settings of a checker and where they come from. For each field the first source that has it
counts: explicit values, the process environment, a file of bindings, the default. Variables have
the field's name after the prefix `TINYTC_`. Letter case does not matter in any of the names.

* `Settings.load`: reads all fields. The complaints are listed in the order of the fields.
-/

namespace ArrowLang

/-- A value before it is checked. -/
inductive RawValue where
  | text (s : String)
  | int (n : Int)
  | flag (b : Bool)
  /-- a number that is written with a fraction or an exponent -/
  | real (x : Float)
  /-- nothing, or a value with parts -/
  | other

inductive Field where
  | policy
  | yieldInterval
  | envStrategy
  | sourceId
  deriving DecidableEq

def Field.name : Field → String
  | .policy => "policy"
  | .yieldInterval => "yield_interval"
  | .envStrategy => "env_strategy"
  | .sourceId => "source_id"

inductive Invalid where
  | notAllowed
  | notInteger
  | tooLong
  | notFinite
  | notWhole
  | integerExpected
  | tooSmall
  | textExpected
  deriving DecidableEq

def Invalid.name : Invalid → String
  | .notAllowed => "literal_error"
  | .notInteger => "int_parsing"
  | .tooLong => "int_parsing_size"
  | .notFinite => "finite_number"
  | .notWhole => "int_from_float"
  | .integerExpected => "int_type"
  | .tooSmall => "greater_than_equal"
  | .textExpected => "string_type"

/-- The integer that a text stands for. -/
def wholeOfText (s : String) : Except Invalid Int :=
  match readInteger s with
  | .ok n => .ok n
  | .error .notInteger => .error .notInteger
  | .error .tooLong => .error .tooLong

/-- The integer that a real number is, if it fits into 64 bits. -/
def wholeOfReal (x : Float) : Except Invalid Int :=
  if !x.isFinite then .error .notFinite
  else if x.floor != x then .error .notWhole
  else if -9223372036854775808.0 < x && x < 9223372036854775808.0 then .ok x.toInt64.toInt
  else .error .tooLong

/-- An integer that is at least one. -/
def positive (n : Int) : Except Invalid Interval :=
  match Interval.ofInt? n with
  | some interval => .ok interval
  | none => .error .tooSmall

def readInterval : RawValue → Except Invalid Interval
  | .text s => (wholeOfText s).bind positive
  | .int n => positive n
  | .flag b => positive (if b then 1 else 0)
  | .real x => (wholeOfReal x).bind positive
  | .other => .error .integerExpected

def readPolicy : RawValue → Except Invalid Policy
  | .text s =>
    match Policy.ofName? s with
    | some p => .ok p
    | none => .error .notAllowed
  | _ => .error .notAllowed

def readStrategy : RawValue → Except Invalid Strategy
  | .text s =>
    match Strategy.ofName? s with
    | some s => .ok s
    | none => .error .notAllowed
  | _ => .error .notAllowed

def readText : RawValue → Except Invalid String
  | .text s => .ok s
  | _ => .error .textExpected

structure Settings where
  policy : Policy
  interval : Interval
  strategy : Strategy
  sourceId : String

namespace Settings

def default : Settings := ⟨.failFast, .one, .chain, defaultSource⟩

/-- The places where settings are looked for. -/
structure Sources where
  /-- explicit values by field name -/
  explicit : List (String × RawValue)
  /-- the variables of the process -/
  process : List (String × String)
  /-- the bindings of a file; a name alone has no value -/
  file : List (String × Option String)

/-- The variable that holds a field, in lower case. -/
def variableName (field : Field) : String := "tinytc_" ++ field.name

/-- What is entered for a field among variables; of several spellings the last counts. -/
def fromVariables? {α : Type} (vars : List (String × α)) (field : Field) : Option α :=
  (vars.reverse.find? fun v => Text.lower v.1 == variableName field).map Prod.snd

/-- The explicit value of a field. Other spellings of the name count before the name itself, and of
them the last. -/
def fromExplicit? (values : List (String × RawValue)) (field : Field) : Option RawValue :=
  let spelled := values.filter fun v => Text.lower v.1 == field.name
  match spelled.reverse.find? fun v => v.1 != field.name with
  | some v => some v.2
  | none => spelled.lookup field.name

/-- The first value that the sources have for a field. -/
def Sources.get? (s : Sources) (field : Field) : Option RawValue :=
  match fromExplicit? s.explicit field, fromVariables? s.process field with
  | some v, _ => some v
  | none, some v => some (.text v)
  | none, none => ((fromVariables? s.file field).bind id).map .text

/-- A field's value, or its default if no source has it. -/
def Sources.read {α : Type} (s : Sources) (field : Field) (reader : RawValue → Except Invalid α)
    (standard : α) : Except Invalid α :=
  match s.get? field with
  | some v => reader v
  | none => .ok standard

/-- The complaint about a field, if there is one. -/
def complaint {α : Type} (field : Field) : Except Invalid α → List (Field × Invalid)
  | .ok _ => []
  | .error e => [(field, e)]

/-- All settings, or the complaints about the fields in order. -/
def load (s : Sources) : Except (List (Field × Invalid)) Settings :=
  let policy := s.read .policy readPolicy default.policy
  let interval := s.read .yieldInterval readInterval default.interval
  let strategy := s.read .envStrategy readStrategy default.strategy
  let sourceId := s.read .sourceId readText default.sourceId
  match policy, interval, strategy, sourceId with
  | .ok policy, .ok interval, .ok strategy, .ok sourceId =>
    .ok ⟨policy, interval, strategy, sourceId⟩
  | _, _, _, _ =>
    .error (complaint .policy policy ++ complaint .yieldInterval interval ++
      complaint .envStrategy strategy ++ complaint .sourceId sourceId)

/-- The checker that the settings ask for. -/
def checker (s : Settings) : Checker := ⟨s.policy, s.interval, s.strategy.name⟩

end Settings

end ArrowLang
