import ProcessLint.Command.FileSystem
import ProcessLint.Command.Run

/-!
The program on a file system: what a command line prints there, and which files it leaves.
-/
namespace ProcessLint

/-- The variables that the program looks at. -/
structure Environment where
  file : Option String
  logLevel : Option String
  deriving DecidableEq, Repr

namespace Environment

def fileVariable : String := "DD_PCLINT_FILE"

def logLevelVariable : String := "DD_PCLINT_LOG_LEVEL"

end Environment

namespace Command

def usage : String :=
  "Lint, fix and graph process-compose configuration files\n\n" ++
  "Usage: dd-pclint [OPTIONS] <COMMAND>\n\n" ++
  "Commands:\n" ++
  "  lint [--disable <RULE>] [--format <text|json>] [FILE]\n" ++
  "  fmt [--disable <RULE>] [--check] [FILE]\n" ++
  "  graph [-f <ascii|mermaid|json|yaml>] [-p <PROCESS>] [FILE]\n" ++
  "  rules\n" ++
  "  help [COMMAND]\n\n" ++
  "Options:\n" ++
  "  -v, --verbose  More log lines; twice for all\n" ++
  "  -h, --help     This text\n" ++
  "  -V, --version  The version\n"

end Command

/-- What a run of the program leaves behind. -/
structure Exit where
  code : Nat
  stdout : String
  stderr : String
  deriving DecidableEq, Repr

namespace Command.Notice

def exit : Notice → Exit
  | help => ⟨0, usage, ""⟩
  | version => ⟨0, "dd-pclint 0.1.0\n", ""⟩
  | misuse => ⟨2, "", "error: the arguments do not fit\n\n" ++ usage⟩

end Command.Notice

namespace Request

def level (request : Request) (environment : Environment) : Log.Level :=
  .choose request.verbosity environment.logLevel

def file? (request : Request) (environment : Environment) : Option String :=
  request.command.file? environment.file

def answer (request : Request) (environment : Environment) (contents : Contents) : Answer :=
  request.command.answer environment.file contents

end Request

def Answer.exit (answer : Answer) (level : Log.Level) : Exit :=
  ⟨answer.ending.code, answer.stdout, answer.stderr level⟩

/-- Runs a command line. -/
def FileSystem.run (fs : FileSystem) (environment : Environment) (arguments : List String) :
    Exit × FileSystem :=
  match Request.ofArguments arguments with
  | .error notice => (notice.exit, fs)
  | .ok request =>
      let path := request.file? environment
      let contents := match path with
        | some path => fs.read path
        | none => .error .notFound
      let answer := request.answer environment contents
      let after := match path, answer.ending.written? with
        | some path, some content => fs.write path content.toUTF8
        | _, _ => fs
      (answer.exit (request.level environment), after)

/-- Files with their names, all in one directory. -/
abbrev Directory := List (String × ByteArray)

namespace Directory

/-- Where the directory is. -/
def location : Location := ["directory"]

/-- The directory and nothing else, as the working directory. A file has its index as number. -/
def fileSystem (directory : Directory) : FileSystem where
  working := location
  node? here :=
    if here = location then some .directory
    else match here with
      | name :: above =>
          if above = location then (directory.findIdx? (·.1 = name)).map .file else none
      | [] => none
  refusal? _ := none
  content number := (directory[number]?.map Prod.snd).getD .empty

/-- Runs a command line in the directory. -/
def run (directory : Directory) (environment : Environment) (arguments : List String) :
    Exit × Directory :=
  let (exit, after) := directory.fileSystem.run environment arguments
  (exit, directory.zipIdx.map fun ((name, _), number) => (name, after.content number))

end Directory

end ProcessLint
