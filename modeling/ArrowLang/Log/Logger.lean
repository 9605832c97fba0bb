import ArrowLang.Log.Filter
import ArrowLang.Log.Format
import ArrowLang.Span
import ArrowLang.Text.Quoted

/-!
# ArrowLang.Log.Logger

A log with one sink, which is set up once for each profile. Every record carries the name of the
program that is being checked.

* `Logger.configure`: sets the sink up anew. The old sink is gone even if that fails.
* `Logger.report`: the records that the sink takes from a list of events.
* `Logger.forward`: passes a message on that was logged elsewhere, under a level of its own.
-/

namespace ArrowLang

inductive Profile where
  /-- for use as a library -/
  | default
  /-- for the command line -/
  | commandLine
  deriving DecidableEq

namespace Profile

def name : Profile → String
  | .default => "default"
  | .commandLine => "cli"

/-- The profile of that name, if there is one. -/
def ofName? (name : String) : Option Profile :=
  [.default, .commandLine].find? fun p => p.name == name

end Profile

/-- Why a log cannot be set up. -/
inductive LogError where
  | unknownProfile (name : String)
  | level (e : LevelError)
  deriving DecidableEq

def LogError.message : LogError → String
  | .unknownProfile name => Text.quote name
  | .level e => e.message

/-- A line of a log. -/
structure Record where
  level : String
  /-- the part of the library it comes from, if any -/
  origin : Option Origin
  /-- the program that was being checked -/
  source : String
  message : String

/-- A record as the command line shows it. -/
def Record.line (r : Record) : String := r.source ++ " | " ++ r.message

structure Logger where
  sink : Option Gate
  /-- the profile that was last set up -/
  profile : Option Profile
  /-- the number of handlers that pass messages from elsewhere on -/
  intercepts : Nat

namespace Logger

def unconfigured : Logger := ⟨none, none, 0⟩

/-- Sets the log up for a profile, unless it is already. -/
def configure (l : Logger) (profile : String) (filter : LogFilter) :
    Except LogError Unit × Logger :=
  if l.profile.map Profile.name == some profile then (.ok (), l)
  else
    match Profile.ofName? profile with
    | none => (.error (.unknownProfile profile), { l with sink := none })
    | some p =>
      match Gate.ofFilter filter with
      | .error e => (.error (.level e), { l with sink := none })
      | .ok gate => (.ok (), ⟨some gate, some p, 1⟩)

/-- The sink takes messages of that severity from that module. -/
def admits (l : Logger) (severity : Nat) (module : Option String) : Bool :=
  match l.sink with
  | none => false
  | some gate => gate.admits severity module

/-- The records of `events`, which happened while `source` was being checked. -/
def report (l : Logger) (source : String) (events : List Event) : List Record :=
  (events.filter fun e => l.admits e.level.severity (some e.origin.name)).map fun e =>
    ⟨e.level.name, some e.origin, source, e.message⟩

/-- The record of a message from outside of the library. -/
def note (l : Logger) (source : String) (level : Level) (message : String) : List Record :=
  if l.admits level.severity none then [⟨level.name, none, source, message⟩] else []

/-- The name that a numeric level goes by elsewhere. -/
def numericName (n : Int) : String :=
  if n = 10 then "DEBUG"
  else if n = 20 then "INFO"
  else if n = 30 then "WARNING"
  else if n = 40 then "ERROR"
  else if n = 50 then "CRITICAL"
  else "Level " ++ toString n

/-- A message from elsewhere: its numeric level, the name of the level if it has one of its own, the
text, and what fills the gaps of the text. -/
structure Foreign where
  severity : Int
  levelName : Option String
  text : String
  args : List FormatArg

/-- The message with its gaps filled. Without arguments the text is taken as it is. -/
def Foreign.message (m : Foreign) : Except FormatError String :=
  if m.args.isEmpty then .ok m.text else Format.fill m.text m.args

/-- Why a message cannot be passed on. -/
inductive ForwardError where
  | format (e : FormatError)
  | negativeLevel (severity : Int)
  deriving DecidableEq

def ForwardError.message : ForwardError → String
  | .format e => e.message
  | .negativeLevel severity =>
    "Invalid level value, it should be a positive integer, not: " ++ toString severity

/-- Passes a message on. It has to be a message even if nobody takes it. A level name that is known
decides; otherwise the number does, which is not looked at without a sink. -/
def forward (l : Logger) (source : String) (m : Foreign) : Except ForwardError (List Record) :=
  match m.message with
  | .error e => .error (.format e)
  | .ok message =>
    match l.sink, Level.ofName? (m.levelName.getD (numericName m.severity)) with
    | none, _ => .ok []
    | some _, some level => .ok (l.note source level message)
    | some _, none =>
      if m.severity < 0 then .error (.negativeLevel m.severity)
      else if l.admits m.severity.toNat none then
        .ok [⟨"Level " ++ toString m.severity, none, source, message⟩]
      else .ok []

end Logger

end ArrowLang
