import ProcessLint.Rule.Environment
import ProcessLint.Rule.Lifecycle
import ProcessLint.Rule.Task
import ProcessLint.Rule.Timing

/-!
Checking a document against rules.
-/
namespace ProcessLint

/-- A document has to declare a version. -/
def checkVersion (doc : Document) : List Violation :=
  if doc.version = "" then
    let position := doc.positionOfKey "version"
    [Rule.version.violation doc position
      (if 0 < position.line then "version is empty" else "document declares no version")]
  else []

/-- The first two neighbours that are out of order. -/
def firstInversion : List String → Option (String × String)
  | before :: after :: rest =>
      if after < before then some (before, after) else firstInversion (after :: rest)
  | _ => none

/-- Processes have to be declared in the order of their names. -/
def checkOrder (doc : Document) : List Violation :=
  match firstInversion doc.processOrder with
  | none => []
  | some (before, after) =>
      [Rule.sortProcesses.violation doc (doc.positionOf after [])
        s!"'{after}' should come before '{before}'"]

namespace Rule

/-- What a rule finds, before it is said what can be fixed. -/
def findings (rule : Rule) (doc : Document) : List Violation :=
  match rule with
  | taskCommand => Task.checkCommands doc
  | taskHealth => Task.checkHealth doc
  | shutdownConfig => Lifecycle.checkShutdown doc
  | restartPolicy => Lifecycle.checkRestart doc
  | envSubstitution => Environment.checkSubstitution doc
  | envFile => Environment.checkEnvFile doc
  | readinessProbe => Lifecycle.checkReadiness doc
  | scheduleConfig => Timing.check doc
  | version => checkVersion doc
  | sortProcesses => checkOrder doc

def check (rule : Rule) (doc : Document) : List Violation :=
  (rule.findings doc).map fun v => { v with fixable := rule.isFixable }

end Rule

/-- The violations of every rule of a set, rule by rule. -/
def RuleSet.check (set : RuleSet) (doc : Document) : List Violation :=
  set.rules.flatMap (·.check doc)

end ProcessLint
