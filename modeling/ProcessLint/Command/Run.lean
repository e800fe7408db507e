import ProcessLint.Command.Answer
import ProcessLint.Command.Request
import ProcessLint.Fix.Run
import ProcessLint.Text.Columns

/-!
The commands. Each runs on what reading its file gave, and answers with what there is to print,
to log and to write.
-/
namespace ProcessLint

/-- What reading a file gives. -/
abbrev Contents := Except ReadFault ByteArray

namespace Command

open Log

def debugLine (source : Source) (message : String) : Line := ⟨.debug, source, message⟩

def infoLine (message : String) : Line := ⟨.info, .program, message⟩

def warnLine (message : String) : Line := ⟨.warn, .rules, message⟩

def enabledLine (set : RuleSet) : Line :=
  debugLine .program ("enabled rules: " ++ String.intercalate ", " (set.rules.map (·.name)))

/-- Said of every document that was read. -/
def readLine (doc : Document) : Line :=
  debugLine .reading <|
    s!"parsed {doc.path}: version={Text.quote doc.version}, {doc.processes.length} process(es)"

def readDocument (path : String) (contents : Contents) : Except ParseError Document :=
  match contents with
  | .error fault => .error ⟨path, .unreadable fault⟩
  | .ok bytes => Document.parse path bytes

/-- The violations as lines with a summary, or as data. -/
def report (doc : Document) (violations : List Violation) : ReportFormat → List String
  | .json => [(Data.list (violations.map (·.data))).json ++ "\n"]
  | .text =>
      let (errors, warnings) := Violation.tally violations
      violations.map (fun v => v.text ++ "\n") ++
        [s!"{doc.path}: {errors} error(s), {warnings} warning(s)\n"]

def lintAnswer (path : String) (disabled : List String) (format : ReportFormat)
    (contents : Contents) : Answer :=
  match RuleSet.all.without disabled with
  | .error e => .failed [] [e.message]
  | .ok set =>
      match readDocument path contents with
      | .error e => .failed [enabledLine set] e.reasons
      | .ok doc =>
          let violations := set.check doc
          let counts := set.rules.map fun rule =>
            debugLine .rules s!"{rule.name}: {(rule.check doc).length} violation(s)"
          let log := enabledLine set :: readLine doc ::
            infoLine s!"linting {path} ({doc.processes.length} processes)" :: counts
          ⟨log, report doc violations format,
            if 0 < (Violation.tally violations).1 then .refused else .done⟩

/-- What is logged while a fix is tried. -/
def attemptLines (fix : Fix) (attempt : Attempt) : List Line :=
  let outcome :=
    match attempt.skipReason? with
    | some reason => "Skipped(" ++ Text.quote reason ++ ")"
    | none => if attempt.isApplied then "Applied" else "Clean"
  let events : List Line :=
    match attempt with
    | .clean => []
    | .applied fixed => [readLine fixed]
    | .changesProcess fixed name =>
        [readLine fixed, warnLine s!"{fix.name}: discarding fix that changes process '{name}'"]
    | .unparsable e => [warnLine s!"{fix.name}: discarding fix that does not parse: {e.message}"]
    | .declined reason => [warnLine (fix.declinedMessage reason)]
  events ++ [debugLine .rules s!"{fix.name}: {outcome}"]

/-- What is printed of a fix, and what is only logged. -/
def outcomeLine (check : Bool) (fix : Fix) (attempt : Attempt) : String ⊕ Line :=
  match attempt.skipReason? with
  | some reason => .inl s!"{fix.name}: no change made: {reason}\n"
  | none =>
      if attempt.isApplied then
        .inl (fix.name ++ (if check then ": would fix\n" else ": fixed\n"))
      else .inr (debugLine .program s!"{fix.name}: nothing to fix")

def fmtAnswer (path : String) (disabled : List String) (check : Bool) (contents : Contents) :
    Answer :=
  match RuleSet.all.without disabled with
  | .error e => .failed [] [e.message]
  | .ok set =>
      match contents with
      | .error fault => .failed [enabledLine set] [s!"reading {path}", fault.message]
      | .ok bytes =>
          match Document.parse path bytes with
          | .error e => .failed [enabledLine set] e.reasons
          | .ok doc =>
              let result := doc.runFixes set.fixes
              let tried := result.attempts.flatMap fun (fix, attempt) => attemptLines fix attempt
              let outcomes :=
                result.attempts.map fun (fix, attempt) => outcomeLine check fix attempt
              let log := enabledLine set :: readLine doc :: tried ++
                outcomes.filterMap Sum.getRight?
              let output := outcomes.filterMap Sum.getLeft?
              if !result.changed then ⟨log, output ++ [s!"{path}: unchanged\n"], .done⟩
              else if check then ⟨log, output ++ [s!"{path}: would be rewritten\n"], .refused⟩
              else
                let content := result.content
                ⟨log ++ [infoLine s!"wrote {content.utf8ByteSize} bytes to {path}"],
                  output ++ [s!"{path}: rewritten\n"], .rewrite content⟩

/-- The graph of a process, or of the document; the name if no process has it. -/
def selectGraph (doc : Document) : Option String → Except String Graph
  | none => .ok (Graph.ofDocument doc fun _ => none)
  | some name =>
      match Graph.ofProcess? doc (fun _ => none) name with
      | some g => .ok g
      | none => .error name

def graphAnswer (path : String) (format : GraphFormat) (process : Option String)
    (contents : Contents) : Answer :=
  match readDocument path contents with
  | .error e => .failed [] e.reasons
  | .ok doc =>
      match selectGraph doc process with
      | .error name => .failed [readLine doc] [s!"no process named '{name}' in {path}"]
      | .ok g => ⟨[readLine doc], [g.render format], .done⟩

def ruleLine (rule : Rule) : String :=
  let fixable := if rule.isFixable then "fixable" else ""
  rule.name.padTo 18 ++ " " ++ rule.severity.name.padTo 5 ++ " " ++ fixable.padTo 7 ++ " " ++
    rule.description ++ "\n"

def rulesAnswer : Answer := ⟨[], Rule.all.map ruleLine, .done⟩

/-- What is read if neither the command line nor the environment names a file. -/
def defaultFile : String := "process-compose.yaml"

/-- The file of a command. An empty name in the environment is none. -/
def path (file environment : Option String) : String :=
  (file <|> environment.filter (· ≠ "")).getD defaultFile

/-- The file that a command reads. -/
def file? (environment : Option String) : Command → Option String
  | .lint file _ _ | .fmt file _ _ | .graph file _ _ => some (path file environment)
  | .rules => none

/-- Runs a command on what reading its file gave. -/
def answer (environment : Option String) (contents : Contents) : Command → Answer
  | .lint file disabled format => lintAnswer (path file environment) disabled format contents
  | .fmt file disabled check => fmtAnswer (path file environment) disabled check contents
  | .graph file format process => graphAnswer (path file environment) format process contents
  | .rules => rulesAnswer

end Command

end ProcessLint
