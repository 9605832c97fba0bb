import ArrowLang.CommandLine

/-!
# ArrowLang.Main

The program: reads the process environment, the files and the standard input that a command asks
for, and writes its outputs.
-/

namespace ArrowLang
namespace CommandLine

/-- The variables in a block of `NAME=value` entries, each ended by a null character. -/
def readVariables (block : String) : List (String × String) :=
  (block.splitOn "\x00").filterMap fun entry =>
    match entry.toList.dropWhile (· != '=') with
    | [] => none
    | _ :: value => some (String.ofList (entry.toList.takeWhile (· != '=')), String.ofList value)

/-- The content of a file, or why there is none. -/
def readPath (path : String) : IO (Except ReadError String) := do
  try
    return .ok (← IO.FS.readFile path)
  catch
    | .noFileOrDirectory .. => return .error .notFound
    | .invalidArgument .. => return .error .nameTooLong
    | .inappropriateType _ code _ =>
      return .error (if code = 21 then .isDirectory else .notDirectory)
    | _ => return .error .isDirectory

def Failure.message : Failure → String
  | .log e => e.message
  | .settings complaints =>
    "\n".intercalate (complaints.map fun c => c.1.name ++ ": " ++ c.2.name)
  | .read e path => e.message path
  | .literal e => e.message
  | .check (.fault f) => f.message
  | .check (.config e) => e.message
  | .print e => e.message

/-- Answers what a command asks for. -/
def settle : Progress → IO Result
  | .finished r => return r
  | .reading (.file path) resume => return resume (← readPath path)
  | .reading _ resume => return resume (.ok (← (← IO.getStdin).readToEnd))

end CommandLine
end ArrowLang

open ArrowLang CommandLine in
def main (args : List String) : IO UInt32 := do
  -- Names of variables count in any letter case, so all variables are read, not single ones.
  let block := (← readPath "/proc/self/environ").toOption.getD ""
  let bindings := (← readPath ".env").toOption
  let result ← settle (launch args ⟨readVariables block, bindings⟩)
  for line in result.logs do
    IO.eprintln line
  IO.eprint result.stderr
  IO.print result.stdout
  if result.exit = 2 then
    IO.eprintln "usage: (check | fmt) [PATH] [-e TEXT] [--policy POLICY] [--async]"
  match result.failure with
  | some f => IO.eprintln f.message
  | none => pure ()
  return result.exit.toUInt32
