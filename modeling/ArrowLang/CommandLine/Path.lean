import ArrowLang.Text.Quoted

/-!
# ArrowLang.CommandLine.Path

Paths of source files, and reading them from files that are given by name and content.

* `normalPath`: a path without empty parts and parts `.`; parts `..` stay.
* `Files.read`: the content of a file, where the directories are those that the file names have.
-/

namespace ArrowLang

/-- The parts of a path that lead somewhere. -/
def pathParts (path : String) : List String :=
  (path.splitOn "/").filter fun part => !part.isEmpty && part != "."

/-- What a path starts from: nothing, or the root, written `/`. Two slashes and no more are kept. -/
def pathRoot (path : String) : String :=
  match path.toList with
  | '/' :: '/' :: '/' :: _ => "/"
  | '/' :: '/' :: _ => "//"
  | '/' :: _ => "/"
  | _ => ""

/-- The path as it is shown. -/
def normalPath (path : String) : String :=
  let shown := pathRoot path ++ "/".intercalate (pathParts path)
  if shown.isEmpty then "." else shown

/-- Why a file cannot be read. -/
inductive ReadError where
  | notFound
  | isDirectory
  | notDirectory
  | nameTooLong
  deriving DecidableEq

/-- The message for a file that cannot be read. -/
def ReadError.message (e : ReadError) (path : String) : String :=
  match e with
  | .notFound => "[Errno 2] No such file or directory: " ++ Text.quote path
  | .isDirectory => "[Errno 21] Is a directory: " ++ Text.quote path
  | .notDirectory => "[Errno 20] Not a directory: " ++ Text.quote path
  | .nameTooLong => "[Errno 36] File name too long: " ++ Text.quote path

/-- The largest size of a part of a path, in bytes. -/
def maxPartSize : Nat := 255

/-- The largest size of a path, in bytes. -/
def maxPathSize : Nat := 4095

/-- Files by name, relative to the working directory. -/
abbrev Files := List (String × String)

namespace Files

/-- The content of the file at `place`. -/
def content? (files : Files) (place : List String) : Option String :=
  (files.find? fun f => pathParts f.1 == place).map Prod.snd

/-- Some file lies below `place`, or `place` is the working directory. -/
def isDirectory (files : Files) (place : List String) : Bool :=
  place.isEmpty ||
    files.any fun f => place.isPrefixOf (pathParts f.1) && place.length < (pathParts f.1).length

/-- Where a path has led to: a place below the working directory, or outside of it, where no file is
known. -/
inductive Place where
  | inside (parts : List String)
  | outside

/-- Follows `parts` from a place. A part is looked up only where there is a directory. -/
def follow (files : Files) (place : Place) : List String → Except ReadError Place
  | [] => .ok place
  | part :: parts =>
    match place with
    | .outside =>
      if part == ".." then follow files .outside parts
      else if maxPartSize < part.utf8ByteSize then .error .nameTooLong
      else .error .notFound
    | .inside here =>
      if files.isDirectory here then
        if maxPartSize < part.utf8ByteSize then .error .nameTooLong
        else if part != ".." then follow files (.inside (here ++ [part])) parts
        else follow files (if here.isEmpty then .outside else .inside here.dropLast) parts
      else if (files.content? here).isSome then .error .notDirectory
      else .error .notFound

/-- The content of the file at `path`. -/
def read (files : Files) (path : String) : Except ReadError String :=
  let origin := if pathRoot path == "" then Place.inside [] else Place.outside
  if maxPathSize < path.utf8ByteSize then .error .nameTooLong
  else
    match files.follow origin (pathParts path) with
    | .error e => .error e
    | .ok .outside => .error .isDirectory
    | .ok (.inside place) =>
      if files.isDirectory place then .error .isDirectory
      else
        match files.content? place with
        | some text => .ok text
        | none => .error .notFound

end Files

end ArrowLang
