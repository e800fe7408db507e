import ProcessLint.Text.Digits
import ProcessLint.Violation

/-!
Commands run through the task runner: the word `task`, options, and a target of segments joined
by colons, the last of which names the action. An action may have a qualifier behind a dash or an
underscore.
-/
namespace ProcessLint.Task

open Text

inductive Mismatch where
  | notTask
  | missingTarget
  | badTarget (target : List Char)
  | wrongAction (target : List Char)
  deriving DecidableEq, Repr

def Mismatch.message (action : String) : Mismatch → String
  | notTask => s!"does not use the task runner (expected `task <name>:{action}`)"
  | missingTarget => s!"`task` is missing a target (expected `task <name>:{action}`)"
  | badTarget target =>
      s!"task target '{String.ofList target}' is not of the form `<name>:{action}`"
  | wrongAction target =>
      s!"task target '{String.ofList target}' should end with ':{action}'"

/-- The first word behind `task` that is no option. -/
def target (command : List Char) : Except Mismatch (List Char) :=
  match words command with
  | [] => .error .notTask
  | first :: rest =>
      if first ≠ "task".toList then .error .notTask
      else match rest.find? (·.head? ≠ some '-') with
        | some target => .ok target
        | none => .error .missingTarget

def isSegmentChar (c : Char) : Bool :=
  isDigit c || ('a' ≤ c && c ≤ 'z') || ('A' ≤ c && c ≤ 'Z') || c = '_' || c = '.' || c = '-'

/-- Segments joined by colons, none of them empty. -/
def isTarget (target : List Char) : Bool :=
  (target.splitOn ':').all fun segment => !segment.isEmpty && segment.all isSegmentChar

/-- Whether a segment is an action, alone or with a qualifier. -/
def isAction (action segment : List Char) : Bool :=
  match stripStart? action segment with
  | none => false
  | some [] => true
  | some (c :: _) => c = '-' || c = '_'

def check (action command : List Char) : Except Mismatch Unit := do
  let target ← target command
  if isTarget target then
    match splitLast ':' target with
    | none => .error (.wrongAction target)
    | some (_, last) => if isAction action last then .ok () else .error (.wrongAction target)
  else .error (.badTarget target)

/-- Enabled processes whose command does not run the action `run`. -/
def checkCommands (doc : Document) : List Violation :=
  doc.enabled.filterMap fun p =>
    match check "run".toList p.command.toList with
    | .ok () => none
    | .error mismatch =>
        some <| Rule.taskCommand.violation doc (doc.positionOf p.name ["command"])
          (s!"process '{p.name}': command " ++ mismatch.message "run")

/-- Enabled processes whose probe has a command that does not run the action `health`. -/
def checkHealth (doc : Document) : List Violation :=
  doc.enabled.filterMap fun p =>
    match p.readinessProbe.map ReadinessProbe.kind with
    | some (.exec exec) =>
        match check "health".toList exec.command.toList with
        | .ok () => none
        | .error mismatch =>
            some <| Rule.taskHealth.violation doc
              (doc.positionOf p.name ["readiness_probe", "exec", "command"])
              (s!"process '{p.name}': readiness probe command " ++ mismatch.message "health")
    | _ => none

end ProcessLint.Task
