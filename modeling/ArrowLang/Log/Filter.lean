import ArrowLang.Entries
import ArrowLang.Log.Level
import ArrowLang.Text.Blank
import ArrowLang.Text.LetterCase

/-!
# ArrowLang.Log.Filter

Log filters such as `debug,tinytc.core=trace,tinytc.surface=false`: a global level, and levels for
single modules, where `false` turns a module off.

* `LogFilter.parse`: reads a filter. Letter case and blanks around the parts do not matter, empty
  parts are skipped, and of two entries for one module the later counts.
* `Gate.ofFilter`: looks the level names up.
* `Gate.admits`: lets a message through if it is severe enough for the global level and then for the
  entry of the longest dotted beginning of its module's name. The entry of the empty name is the
  entry of last resort.
-/

namespace ArrowLang

structure LogFilter where
  level : String
  /-- modules in the order of their first entry; `none` turns a module off -/
  modules : List (String × Option String)

namespace LogFilter

/-- The filter of a log that nobody has set up. -/
def standard : LogFilter := ⟨"info", []⟩

/-- Reads one part of a filter, without blanks at its ends. -/
def readPart (f : LogFilter) (part : List Char) : LogFilter :=
  match part.dropWhile (· != '=') with
  | [] => { f with level := String.ofList part }
  | _ :: level =>
    let name := String.ofList (Text.trimChars Text.isBlank (part.takeWhile (· != '=')))
    let level := String.ofList (Text.trimChars Text.isBlank level)
    let entry := if level == "false" then none else some (Text.upper level)
    { f with modules := putEntry f.modules name entry }

def parse (value : String) : LogFilter :=
  let parts := ((Text.lower value).toList.splitOn ',').map (Text.trimChars Text.isBlank)
  (parts.filter fun p => !p.isEmpty).foldl readPart standard

end LogFilter

/-- A level name that stands for no level. -/
inductive LevelError where
  | unknownLevel (name : String)
  | unknownModuleLevel (module name : String)
  deriving DecidableEq

def LevelError.message : LevelError → String
  | .unknownLevel name => "Level '" ++ name ++ "' does not exist"
  | .unknownModuleLevel module name =>
    "The filter dict contains a module '" ++ module ++
      "' associated to a level name which does not exist: '" ++ name ++ "'"

/-- A filter whose levels are looked up. -/
structure Gate where
  threshold : Nat
  /-- the least severity by module; `none` turns a module off -/
  modules : List (String × Option Nat)

namespace Gate

def moduleEntry (m : String × Option String) : Except LevelError (String × Option Nat) :=
  match m.2 with
  | none => .ok (m.1, none)
  | some name =>
    match Level.ofName? name with
    | some level => .ok (m.1, some level.severity)
    | none => .error (.unknownModuleLevel m.1 name)

/-- Looks up the levels of the modules in turn, then the global one. -/
def ofFilter (f : LogFilter) : Except LevelError Gate := do
  let modules ← f.modules.mapM moduleEntry
  match Level.ofName? (Text.upper f.level) with
  | some level => .ok ⟨level.severity, modules⟩
  | none => .error (.unknownLevel (Text.upper f.level))

/-- The beginnings of a dotted name, from the whole of it to the empty name. -/
def beginnings (name : String) : List String :=
  let parts := name.splitOn "."
  ((List.range parts.length).reverse.map fun n => ".".intercalate (parts.take (n + 1))) ++ [""]

/-- Lets a message through. One that comes from no module of the library has only the entry of last
resort. -/
def admits (g : Gate) (severity : Nat) (module : Option String) : Bool :=
  decide (g.threshold ≤ severity) &&
    match ((module.map beginnings).getD [""]).findSome? (g.modules.lookup ·) with
    | none => true
    | some none => false
    | some (some least) => decide (least ≤ severity)

end Gate

end ArrowLang
