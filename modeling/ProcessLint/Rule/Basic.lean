/-!
The rules that a document is checked against, in the order in which their violations are
reported.
-/
namespace ProcessLint

inductive Severity where
  | warn
  | error
  deriving DecidableEq, Repr

def Severity.name : Severity → String
  | warn => "warn"
  | error => "error"

inductive Rule where
  | taskCommand
  | taskHealth
  | shutdownConfig
  | restartPolicy
  | envSubstitution
  | envFile
  | readinessProbe
  | scheduleConfig
  | version
  | sortProcesses
  deriving DecidableEq, Repr

namespace Rule

def all : List Rule :=
  [taskCommand, taskHealth, shutdownConfig, restartPolicy, envSubstitution, envFile,
    readinessProbe, scheduleConfig, version, sortProcesses]

def name : Rule → String
  | taskCommand => "task-command"
  | taskHealth => "task-health"
  | shutdownConfig => "shutdown-config"
  | restartPolicy => "restart-policy"
  | envSubstitution => "env-substitution"
  | envFile => "env-file"
  | readinessProbe => "readiness-probe"
  | scheduleConfig => "schedule-config"
  | version => "version"
  | sortProcesses => "sort-processes"

def description : Rule → String
  | taskCommand => "process commands use `task <name>:run`"
  | taskHealth => "exec readiness probes use `task <name>:health`"
  | shutdownConfig => "processes configure a shutdown signal or timeout"
  | restartPolicy => "processes configure an availability restart policy"
  | envSubstitution => "secret-like environment values use $\x7bVAR\x7d substitution"
  | envFile => "documents using $\x7bVAR\x7d substitution declare an env_file"
  | readinessProbe => "processes configure a readiness probe"
  | scheduleConfig => "schedules set exactly one valid cron or interval"
  | version => "the document declares a version"
  | sortProcesses => "processes are declared in alphabetical order"

def severity : Rule → Severity
  | envFile | scheduleConfig | version => .error
  | _ => .warn

def ofName? (name : String) : Option Rule := all.find? (·.name == name)

end Rule

/-- A rule whose violations can be mended by rewriting the text. -/
inductive Fix where
  | version
  | sortProcesses
  deriving DecidableEq, Repr

namespace Fix

def rule : Fix → Rule
  | version => .version
  | sortProcesses => .sortProcesses

def name (fix : Fix) : String := fix.rule.name

def description (fix : Fix) : String := fix.rule.description

end Fix

namespace Rule

def fix? : Rule → Option Fix
  | version => some .version
  | sortProcesses => some .sortProcesses
  | _ => none

def isFixable (rule : Rule) : Bool := rule.fix?.isSome

end Rule

/-- A name that no rule has. -/
structure UnknownRule where
  name : String
  deriving DecidableEq, Repr

def UnknownRule.message (e : UnknownRule) : String := s!"unknown rule '{e.name}'"

/-- Rules that are enabled. They keep the order of all rules and none is there twice. -/
structure RuleSet where
  rules : List Rule
  sublist_all : rules.Sublist Rule.all
  deriving DecidableEq, Repr

namespace RuleSet

def all : RuleSet := ⟨Rule.all, .refl Rule.all⟩

/-- The set without one rule. -/
def erase (set : RuleSet) (rule : Rule) : RuleSet :=
  ⟨set.rules.filter (· ≠ rule), List.filter_sublist.trans set.sublist_all⟩

/-- The set without some rules; the first name that no rule has is refused. -/
def without (set : RuleSet) : List String → Except UnknownRule RuleSet
  | [] => .ok set
  | name :: names =>
      match Rule.ofName? name with
      | none => .error ⟨name⟩
      | some rule => RuleSet.without (set.erase rule) names

def fixes (set : RuleSet) : List Fix := set.rules.filterMap Rule.fix?

end RuleSet

end ProcessLint
