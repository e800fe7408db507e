import ProcessLint.SourceMap
import ProcessLint.Text.Space
import ProcessLint.Text.Split

/-!
A document: named processes with their dependencies, probes and schedules, the text they were
read from, and where in it they stand.
-/
namespace ProcessLint

/-- What a dependency must have reached before the process that needs it starts. -/
inductive Condition where
  | started
  | healthy
  | completed
  | completedSuccessfully
  /-- A tag that is not known, kept as it is. -/
  | other (tag : String)
  deriving DecidableEq, Repr

namespace Condition

def tag : Condition → String
  | started => "process_started"
  | healthy => "process_healthy"
  | completed => "process_completed"
  | completedSuccessfully => "process_completed_successfully"
  | other tag => tag

def ofTag (tag : String) : Condition :=
  if tag = "process_started" then started
  else if tag = "process_healthy" then healthy
  else if tag = "process_completed" then completed
  else if tag = "process_completed_successfully" then completedSuccessfully
  else other tag

def isKnown : Condition → Bool
  | other _ => false
  | _ => true

end Condition

structure Dependency where
  name : String
  condition : Condition
  deriving DecidableEq, Repr

/-- A number, or text in which variables may stand for one. -/
inductive NumberOrText where
  | number (n : Int)
  | text (s : String)
  deriving DecidableEq, Repr

def NumberOrText.toText : NumberOrText → String
  | number n => toString n
  | text s => s

structure HttpProbe where
  scheme : Option String
  host : Option String
  port : Option NumberOrText
  path : Option String
  deriving DecidableEq, Repr

structure ExecProbe where
  command : String
  workingDir : Option String
  deriving DecidableEq, Repr

structure ReadinessProbe where
  httpGet : Option HttpProbe
  exec : Option ExecProbe
  initialDelaySeconds : Option Nat
  periodSeconds : Option Nat
  timeoutSeconds : Option Nat
  successThreshold : Option Nat
  failureThreshold : Option Nat
  deriving DecidableEq, Repr

/-- The kind of check that a probe performs. -/
inductive ProbeKind where
  | exec (probe : ExecProbe)
  | http (probe : HttpProbe)
  | empty
  deriving DecidableEq, Repr

/-- A command counts before a request. -/
def ReadinessProbe.kind (probe : ReadinessProbe) : ProbeKind :=
  match probe.exec, probe.httpGet with
  | some exec, _ => .exec exec
  | none, some http => .http http
  | none, none => .empty

structure Schedule where
  cron : Option String
  timezone : Option String
  interval : Option String
  runOnStart : Bool
  maxConcurrent : Option Int
  deriving DecidableEq, Repr

namespace Schedule

/-- The cron expression, unless it is blank. -/
def effectiveCron (s : Schedule) : Option String := s.cron.filter (!·.isBlank)

/-- The interval, unless it is blank. -/
def effectiveInterval (s : Schedule) : Option String := s.interval.filter (!·.isBlank)

end Schedule

structure Availability where
  restart : Option String
  backoffSeconds : Option Nat
  maxRestarts : Option Nat
  deriving DecidableEq, Repr

structure Shutdown where
  signal : Option NumberOrText
  timeoutSeconds : Option Nat
  command : Option String
  deriving DecidableEq, Repr

structure Process where
  name : String
  command : String
  disabled : Bool
  namespaceName : Option String
  dependsOn : List Dependency
  readinessProbe : Option ReadinessProbe
  schedule : Option Schedule
  availability : Option Availability
  shutdown : Option Shutdown
  environment : List String
  deriving DecidableEq, Repr

namespace Process

/-- A process of which nothing but the name is given. -/
def named (name : String) : Process where
  name
  command := ""
  disabled := false
  namespaceName := none
  dependsOn := []
  readinessProbe := none
  schedule := none
  availability := none
  shutdown := none
  environment := []

def isEnabled (p : Process) : Bool := !p.disabled

/-- An entry of the environment, cut at the first equals sign. Without one the value is empty. -/
def splitEntry (entry : String) : String × String :=
  match Text.splitFirst '=' entry.toList with
  | some (key, value) => (String.ofList (Text.trim key), String.ofList value)
  | none => (entry.trimSpace, "")

/-- Keys and values of the environment in order. -/
def environmentPairs (p : Process) : List (String × String) := p.environment.map splitEntry

end Process

structure Document where
  path : String
  /-- The declared version; empty if there is none. -/
  version : String
  envFiles : List String
  /-- The text that the document was read from. -/
  text : String
  sourceMap : SourceMap
  /-- Processes in the order in which they are declared. -/
  processes : List Process
  deriving DecidableEq, Repr

namespace Document

/-- The text cut at line feeds; carriage returns stay. -/
def lines (doc : Document) : List String := (doc.text.toList.splitOn '\n').map String.ofList

def process? (doc : Document) (name : String) : Option Process :=
  doc.processes.find? (·.name == name)

def processOrder (doc : Document) : List String := doc.sourceMap.processOrder

/-- The position of a field of a process, or else of the process. -/
def positionOf (doc : Document) (process : String) (field : List String) : Position :=
  ((doc.sourceMap.get? ("processes" :: process :: field)).orElse fun _ =>
    doc.sourceMap.get? ["processes", process]).getD .unknown

/-- The position of a top-level key. -/
def positionOfKey (doc : Document) (key : String) : Position :=
  (doc.sourceMap.get? [key]).getD .unknown

end Document

end ProcessLint
