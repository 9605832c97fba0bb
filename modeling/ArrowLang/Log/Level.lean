/-!
# ArrowLang.Log.Level

The named levels of log messages, each with its severity, and the events that the library reports.
-/

namespace ArrowLang

inductive Level where
  | trace
  | debug
  | info
  | success
  | warning
  | error
  | critical
  deriving DecidableEq

namespace Level

def all : List Level := [.trace, .debug, .info, .success, .warning, .error, .critical]

def name : Level → String
  | .trace => "TRACE"
  | .debug => "DEBUG"
  | .info => "INFO"
  | .success => "SUCCESS"
  | .warning => "WARNING"
  | .error => "ERROR"
  | .critical => "CRITICAL"

def severity : Level → Nat
  | .trace => 5
  | .debug => 10
  | .info => 20
  | .success => 25
  | .warning => 30
  | .error => 40
  | .critical => 50

/-- The level of that name, if there is one. -/
def ofName? (name : String) : Option Level :=
  all.find? fun l => l.name == name

end Level

/-- The parts of the library that report events. -/
inductive Origin where
  | checker
  | driver
  | parser
  | commandLine
  /-- the reader of files of bindings -/
  | bindingsFile
  deriving DecidableEq

/-- The dotted name under which a part is filtered. -/
def Origin.name : Origin → String
  | .checker => "tinytc.core.checker"
  | .driver => "tinytc.core.driver"
  | .parser => "tinytc.surface.parser"
  | .commandLine => "tinytc.cli"
  | .bindingsFile => "dotenv.main"

/-- Something worth a line in a log. -/
structure Event where
  level : Level
  origin : Origin
  message : String

end ArrowLang
