import ProcessLint.Command.Log
import ProcessLint.Document.Parse

/-!
What running a command comes to. Nothing happens while it runs: what is printed, logged and written
is part of the answer.
-/
namespace ProcessLint

/-- How a run ends. Only a run that ends well may write its file. -/
inductive Ending where
  | done
  /-- The file is to have new content. -/
  | rewrite (content : String)
  /-- There are errors, or a check failed. -/
  | refused
  /-- There is no answer; the reasons, each behind the one that it led to. -/
  | failed (reasons : List String)
  deriving DecidableEq, Repr

namespace Ending

def code : Ending → Nat
  | done | rewrite _ => 0
  | refused => 1
  | failed _ => 2

def written? : Ending → Option String
  | rewrite content => some content
  | _ => none

end Ending

structure Answer where
  log : List Log.Line
  output : List String
  ending : Ending
  deriving DecidableEq, Repr

namespace Answer

def failed (log : List Log.Line) (reasons : List String) : Answer := ⟨log, [], .failed reasons⟩

/-- What a run prints. -/
def stdout (answer : Answer) : String := String.join answer.output

/-- The lines that a run prints beside its output: the log, then why it failed. -/
def stderrLines (answer : Answer) (level : Log.Level) : List String :=
  Log.shown level answer.log ++ match answer.ending with
    | .failed reasons => ["error: " ++ String.intercalate ": " reasons]
    | _ => []

def stderr (answer : Answer) (level : Log.Level) : String :=
  String.join ((answer.stderrLines level).map (· ++ "\n"))

end Answer

/-- A failure with the fault below it. -/
def ParseError.reasons (e : ParseError) : List String := e.message :: e.source?.toList

end ProcessLint
