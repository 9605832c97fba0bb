import ArrowLang.Checker

/-!
# ArrowLang.CommandLine.Args

The arguments of the command line.

* `check [PATH] [-e TEXT | --expr TEXT] [--policy POLICY] [--async]`
* `fmt [PATH] [-e TEXT | --expr TEXT]`

Options may stand before and after the path, and a value may be attached to its option (`-eTEXT`,
`--expr=TEXT`). The last of repeated options counts. After `--` everything is a path.
-/

namespace ArrowLang

inductive Verb where
  | check
  | fmt
  deriving DecidableEq

/-- The verb of that name, if there is one. -/
def Verb.ofName? : String → Option Verb
  | "check" => some .check
  | "fmt" => some .fmt
  | _ => none

/-- The options that take a value. -/
inductive ValueOption where
  | expr
  | policy
  deriving DecidableEq

/-- Arguments as they are given, not yet checked. -/
structure RawArgs where
  paths : List String
  expr : Option String
  policy : Option String
  async : Bool

namespace RawArgs

def empty : RawArgs := ⟨[], none, none, false⟩

def set (args : RawArgs) : ValueOption → String → RawArgs
  | .expr, value => { args with expr := some value }
  | .policy, value => { args with policy := some value }

end RawArgs

/-- What one argument is. -/
inductive ArgKind where
  /-- `--` -/
  | pathsOnly
  | path (text : String)
  /-- an option with its value -/
  | valued (option : ValueOption) (value : String)
  /-- an option whose value is the next argument -/
  | awaiting (option : ValueOption)
  | async
  | unknown

/-- The option of that long name that takes a value. -/
def ValueOption.ofName? (verb : Verb) (name : String) : Option ValueOption :=
  match verb, name with
  | _, "--expr" => some .expr
  | .check, "--policy" => some .policy
  | _, _ => none

/-- Classes an argument that starts with `-` and is longer than that. -/
def ArgKind.ofOption (verb : Verb) (arg : String) : ArgKind :=
  let name := String.ofList (arg.toList.takeWhile (· != '='))
  let attached := arg.toList.dropWhile (· != '=')
  match ValueOption.ofName? verb name, attached with
  | some option, [] => .awaiting option
  | some option, _ :: value => .valued option (String.ofList value)
  | none, [] => if verb = .check && name == "--async" then .async else short
  | none, _ => short
where
  short : ArgKind :=
    match arg.toList with
    | '-' :: 'e' :: [] => .awaiting .expr
    | '-' :: 'e' :: value => .valued .expr (String.ofList value)
    | _ => .unknown

def ArgKind.of (verb : Verb) (arg : String) : ArgKind :=
  if arg == "--" then .pathsOnly
  else if arg.startsWith "-" && arg != "-" then .ofOption verb arg
  else .path arg

/-- Reads the arguments of a verb; `none` if some option is unknown or lacks its value. -/
def RawArgs.read (verb : Verb) (args : RawArgs) : List String → Option RawArgs
  | [] => some args
  | arg :: rest =>
    match ArgKind.of verb arg with
    | .pathsOnly => some { args with paths := args.paths ++ rest }
    | .path text => read verb { args with paths := args.paths ++ [text] } rest
    | .valued option value => read verb (args.set option value) rest
    | .awaiting option =>
      match rest with
      | value :: rest => read verb (args.set option value) rest
      | [] => none
    | .async => read verb { args with async := true } rest
    | .unknown => none

/-- Where a program comes from. -/
inductive Input where
  | text (program : String)
  | stdin
  | file (path : String)

inductive Command where
  | check (input : Input) (policy : Option Policy) (host : Host)
  | fmt (input : Input)

namespace Command

def input : Command → Input
  | .check input _ _ => input
  | .fmt input => input

/-- The input that the arguments name: an expression before a path, and the standard input without
either. -/
def inputOf (path : Option String) (expr : Option String) (shown : String → String) : Input :=
  match expr, path with
  | some text, _ => .text text
  | none, none => .stdin
  | none, some path => if shown path == "-" then .stdin else .file (shown path)

/-- A path holds no null character. -/
def isPath (text : String) : Bool := !text.toList.contains '\x00'

/-- The command of checked arguments; at most one path and a known policy are allowed. -/
def ofRaw? (verb : Verb) (args : RawArgs) (shown : String → String) : Option Command :=
  if args.paths.length ≤ 1 && args.paths.all isPath then
    let input := inputOf args.paths.head? args.expr shown
    match verb, args.policy with
    | .fmt, _ => some (.fmt input)
    | .check, none => some (.check input none (if args.async then .session else .direct))
    | .check, some name =>
      (Policy.ofName? name).map fun p =>
        .check input (some p) (if args.async then .session else .direct)
  else none

/-- The command that a list of arguments stands for; `none` if they are misused. Paths are shown
as `shown` tells. -/
def parse? (shown : String → String) (args : List String) : Option Command :=
  match (if args.head? == some "--" then args.drop 1 else args) with
  | [] => none
  | name :: rest =>
    match Verb.ofName? name with
    | none => none
    | some verb =>
      match RawArgs.read verb .empty rest with
      | none => none
      | some raw => ofRaw? verb raw shown

end Command

end ArrowLang
