import ProcessLint.Command.Token
import ProcessLint.Graph.Format

/-!
What the command line asks for: a command with its settings, or a notice in place of one. Of
several reasons for a notice the first argument that gives one decides.
-/
namespace ProcessLint

inductive ReportFormat where
  | text
  | json
  deriving DecidableEq, Repr

/-- The format with exactly this name. -/
def ReportFormat.ofName? (name : String) : Option ReportFormat :=
  if name = "text" then some .text
  else if name = "json" then some .json
  else none

inductive Command where
  | lint (file : Option String) (disabled : List String) (format : ReportFormat)
  | fmt (file : Option String) (disabled : List String) (check : Bool)
  | graph (file : Option String) (format : GraphFormat) (process : Option String)
  | rules
  deriving DecidableEq, Repr

namespace Command

inductive Verb where
  | lint
  | fmt
  | graph
  | rules
  deriving DecidableEq, Repr

/-- What is said instead of running a command. -/
inductive Notice where
  | help
  | version
  | misuse
  deriving DecidableEq, Repr

namespace Verb

def ofName? (name : String) : Option Verb :=
  if name = "lint" then some lint
  else if name = "fmt" then some fmt
  else if name = "graph" then some graph
  else if name = "rules" then some rules
  else none

def takesFile : Verb → Bool
  | rules => false
  | _ => true

end Verb

/-- Options that stand before a command as well as behind it. -/
def commonSwitches : List Switch :=
  [⟨"verbose", some 'v', .flag .verbose⟩, ⟨"help", some 'h', .flag .help⟩]

def topSwitches : List Switch := commonSwitches ++ [⟨"version", some 'V', .flag .version⟩]

def Verb.switches : Verb → List Switch
  | lint =>
      commonSwitches ++
        [⟨"disable", none, .valued .disable⟩, ⟨"format", none, .valued .reportFormat⟩]
  | fmt =>
      commonSwitches ++ [⟨"disable", none, .valued .disable⟩, ⟨"check", none, .flag .check⟩]
  | graph =>
      commonSwitches ++
        [⟨"format", some 'f', .valued .graphFormat⟩, ⟨"process", some 'p', .valued .process⟩]
  | rules => commonSwitches

/-- What the options read so far say. -/
structure Settings where
  verbosity : Nat
  file : Option String
  disabled : List String
  reportFormat : Option ReportFormat
  graphFormat : Option GraphFormat
  process : Option String
  check : Bool
  deriving DecidableEq, Repr

namespace Settings

def empty : Settings := ⟨0, none, [], none, none, none, false⟩

/-- The settings with one token more. Only rules are disabled, and verbosity raised, more than
once. -/
def add (takesFile : Bool) (s : Settings) : Token → Except Notice Settings
  | .help => .error .help
  | .version => .error .version
  | .invalid => .error .misuse
  | .verbose => .ok { s with verbosity := s.verbosity + 1 }
  | .check => if s.check then .error .misuse else .ok { s with check := true }
  | .disable rule => .ok { s with disabled := s.disabled ++ [rule] }
  | .reportFormat name =>
      match s.reportFormat, ReportFormat.ofName? name with
      | none, some format => .ok { s with reportFormat := some format }
      | _, _ => .error .misuse
  | .graphFormat name =>
      match s.graphFormat, GraphFormat.ofName name with
      | none, .ok format => .ok { s with graphFormat := some format }
      | _, _ => .error .misuse
  | .process name =>
      if s.process.isSome then .error .misuse else .ok { s with process := some name }
  | .operand text =>
      if takesFile && s.file.isNone && text != "" then .ok { s with file := some text }
      else .error .misuse

def command (s : Settings) : Verb → Command
  | .lint => .lint s.file s.disabled (s.reportFormat.getD .text)
  | .fmt => .fmt s.file s.disabled s.check
  | .graph => .graph s.file (s.graphFormat.getD .ascii) s.process
  | .rules => .rules

end Settings

/-- The notice for what follows the word that asks for help: a command, or nothing. -/
def helpOn : List String → Notice
  | [] => .help
  | [name] => if name = "help" || (Verb.ofName? name).isSome then .help else .misuse
  | _ => .misuse

end Command

structure Request where
  verbosity : Nat
  command : Command
  deriving DecidableEq, Repr

open Command in
/-- The request of a command line. The verbosity given behind the command counts before the one in
front of it. -/
def Request.ofArguments (arguments : List String) : Except Notice Request := do
  let (before, rest) := arguments.span isOption
  let outer ← (tokens topSwitches none before).foldlM (Settings.add false) .empty
  match rest with
  | [] => .error .misuse
  | name :: rest =>
      if name = "help" then .error (helpOn rest)
      else match Verb.ofName? name with
        | none => .error .misuse
        | some verb =>
            let inner ←
              (tokens verb.switches none rest).foldlM (Settings.add verb.takesFile) .empty
            let verbosity := if 0 < inner.verbosity then inner.verbosity else outer.verbosity
            return ⟨verbosity, inner.command verb⟩

end ProcessLint
