import ArrowLang.CommandLine.Args
import ArrowLang.CommandLine.Path
import ArrowLang.Log.Logger
import ArrowLang.Settings
import ArrowLang.Term.Printer
import ArrowLang.Text.ControlSequence
import ArrowLang.Text.Newline

/-!
# ArrowLang.CommandLine

The commands `check`, which prints the type of a program, and `fmt`, which prints a program in
normal form.

* `CommandLine.launch`: all that happens before the program text is read. It ends with the result,
  or tells what to read and how to go on.
* `CommandLine.Result`: the exit code, the two outputs, the log, and the failure that ended the
  command, if one did.
-/

namespace ArrowLang
namespace CommandLine

/-- What ends a command other than an error in the program. -/
inductive Failure where
  | log (e : LogError)
  | settings (complaints : List (Field × Invalid))
  | read (e : ReadError) (path : String)
  | literal (e : ParseFailure)
  | check (e : CheckFailure)
  | print (e : PrintFailure)

structure Result where
  exit : Nat
  stdout : String
  stderr : String
  /-- the lines of the log -/
  logs : List String
  failure : Option Failure

namespace Result

/-- The arguments were misused. -/
def misuse : Result := ⟨2, "", "", [], none⟩

def failed (logs : List Record) (f : Failure) : Result := ⟨1, "", "", logs.map Record.line, some f⟩

/-- The program was rejected with `message`. -/
def rejected (logs : List Record) (message : String) : Result :=
  ⟨1, "", Text.plain message ++ "\n", logs.map Record.line, none⟩

def printed (logs : List Record) (text : String) : Result :=
  ⟨0, Text.plain text ++ "\n", "", logs.map Record.line, none⟩

/-- The result with `logs` before its own. -/
def logged (logs : List Record) (r : Result) : Result :=
  { r with logs := logs.map Record.line ++ r.logs }

end Result

/-- A command under way: finished, or waiting for an input. -/
inductive Progress where
  | finished (r : Result)
  | reading (input : Input) (resume : Except ReadError String → Result)

/-- The command under way with `logs` before its own. -/
def Progress.logged (logs : List Record) : Progress → Progress
  | .finished r => .finished (r.logged logs)
  | .reading input resume => .reading input fun content => (resume content).logged logs

/-- The surroundings of a command. -/
structure Surroundings where
  /-- the variables of the process -/
  vars : List (String × String)
  /-- the text of the file of bindings, if there is one -/
  bindings : Option String

def checkEnd : Event := ⟨.info, .commandLine, "check.failed"⟩

def checkStart (policy : Policy) (host : Host) : Event :=
  ⟨.info, .commandLine, "check.start policy=" ++ policy.name ++ " async=" ++
    match host with
    | .direct => "False"
    | .session => "True"⟩

/-- Checks the program `text`, which is reported as `source`. -/
def check (logger : Logger) (settings : Settings) (host : Host) (text source : String) : Result :=
  let opening := checkStart settings.policy host
  match parse text (some source) with
  | .error (.malformed e) =>
    let events := opening :: (ParseFailure.malformed e).events ++ [checkEnd]
    .rejected (logger.report source events) e.message
  | .error e => .failed (logger.report source (opening :: e.events)) (.literal e)
  | .ok t =>
    let report := settings.checker.check host t .fresh
    let events := opening :: report.events
    match report.outcome with
    | .error e => .failed (logger.report source events) (.check e)
    | .ok (.error ds) => .rejected (logger.report source (events ++ [checkEnd])) ds.render
    | .ok (.ok τ) => .printed (logger.report source events) τ.render

/-- Prints the program `text` in normal form. Nothing is being checked, so the log goes by the
default source. -/
def format (logger : Logger) (text source : String) : Result :=
  match parse text (some source) with
  | .error (.malformed e) =>
    .rejected (logger.report defaultSource (ParseFailure.malformed e).events) e.message
  | .error e => .failed [] (.literal e)
  | .ok t =>
    match t.render with
    | .error e => .failed [] (.print e)
    | .ok text => .printed [] text

/-- Carries the command out on the program `text`. -/
def execute (command : Command) (logger : Logger) (settings : Settings) (text source : String) :
    Result :=
  match command with
  | .check _ _ host => check logger settings host text source
  | .fmt _ => format logger text source

/-- The values that a command sets by itself. -/
def explicitValues : Command → List (String × RawValue)
  | .check _ (some policy) _ => [(Field.policy.name, .text policy.name)]
  | _ => []

/-- The filter that the variables ask for. -/
def logFilter (vars : List (String × String)) : LogFilter :=
  match vars.lookup "TINYTC_LOG_FILTER" with
  | some value => .parse value
  | none => .standard

/-- The warning about a statement in a file of bindings that starts on `line`. -/
def unreadable (line : Nat) : Event :=
  ⟨.warning, .bindingsFile, "python-dotenv could not parse statement starting at line " ++
    toString line⟩

/-- Asks for the program and carries the command out on it. -/
def proceed (command : Command) (logger : Logger) (settings : Settings) : Progress :=
  match command.input with
  | .text program => .finished (execute command logger settings program settings.sourceId)
  | .stdin => .reading .stdin fun
    | .ok text => execute command logger settings (Text.unifyNewlines text) settings.sourceId
    | .error e => .failed [] (.read e "-")
  | .file path => .reading (.file path) fun
    | .ok text => execute command logger settings (Text.unifyNewlines text) path
    | .error e => .failed [] (.read e path)

/-- Sets the log up and loads the settings, then goes on. -/
def prepare (command : Command) (s : Surroundings) : Progress :=
  match Logger.unconfigured.configure Profile.commandLine.name (logFilter s.vars) with
  | (.error e, _) => .finished (.failed [] (.log e))
  | (.ok (), logger) =>
    let file := BindingsFile.load s.vars (s.bindings.getD "")
    let warnings := logger.report defaultSource (file.faults.map unreadable)
    Progress.logged warnings <|
      match Settings.load ⟨explicitValues command, s.vars, file.bindings⟩ with
      | .error complaints => .finished (.failed [] (.settings complaints))
      | .ok settings => proceed command logger settings

/-- Begins the command that the arguments stand for. -/
def launch (args : List String) (s : Surroundings) : Progress :=
  match Command.parse? normalPath args with
  | none => .finished .misuse
  | some command => prepare command s

/-- A whole run over files and an input that are given as values. -/
def run (args : List String) (vars : List (String × String)) (files : Files)
    (stdin : String) : Result :=
  match launch args ⟨vars, (files.read ".env").toOption⟩ with
  | .finished r => r
  | .reading (.file path) resume => resume (files.read path)
  | .reading _ resume => resume (.ok stdin)

end CommandLine
end ArrowLang
