import ProcessLint.Command.Program

/-!
The command line program: reads the file of its command, runs the command on it and carries out
the answer.
-/
namespace ProcessLint.Main

/-- The numbers are those of the faults on Linux. -/
def faultOf : IO.Error → ReadFault
  | .noFileOrDirectory .. => .notFound
  | .inappropriateType _ 20 _ => .notADirectory
  | .inappropriateType _ 21 _ => .isDirectory
  | .invalidArgument _ 40 _ => .tooManyLinks
  | e => .refused e.toString

def readFile (path : String) : IO Contents := do
  try
    return .ok (← IO.FS.readBinFile path)
  catch e =>
    return .error (faultOf e)

def readEnvironment : IO Environment :=
  return ⟨← IO.getEnv Environment.fileVariable, ← IO.getEnv Environment.logLevelVariable⟩

def carryOut (exit : Exit) : IO UInt32 := do
  IO.print exit.stdout
  IO.eprint exit.stderr
  return exit.code.toUInt32

def run (request : Request) (environment : Environment) : IO UInt32 := do
  let path := request.file? environment
  let contents ← match path with
    | some path => readFile path
    | none => pure (.error .notFound)
  let answer := request.answer environment contents
  match path, answer.ending.written? with
  | some path, some content => IO.FS.writeFile path content
  | _, _ => pure ()
  carryOut (answer.exit (request.level environment))

end ProcessLint.Main

open ProcessLint in
def main (arguments : List String) : IO UInt32 := do
  match Request.ofArguments arguments with
  | .error notice => Main.carryOut notice.exit
  | .ok request => Main.run request (← Main.readEnvironment)
