import ProcessLint.Data.Basic
import ProcessLint.Document.Basic
import ProcessLint.Rule.Basic

/-!
A finding: what is wrong with a document, and where.
-/
namespace ProcessLint

structure Violation where
  file : String
  position : Position
  rule : Rule
  message : String
  severity : Severity
  fixable : Bool
  deriving DecidableEq, Repr

namespace Violation

def isError (v : Violation) : Bool := v.severity = .error

/-- A line or column that is unknown is left out; a column does not stand without a line. -/
def text (v : Violation) : String :=
  let place :=
    if v.position.line = 0 then ""
    else if v.position.column = 0 then s!":{v.position.line}"
    else s!":{v.position.line}:{v.position.column}"
  s!"{v.file}{place}: {v.severity.name} [{v.rule.name}] {v.message}" ++
    (if v.fixable then " (fixable)" else "")

/-- How many violations are errors, and how many are not. -/
def tally (violations : List Violation) : Nat × Nat :=
  let errors := violations.countP isError
  (errors, violations.length - errors)

def data (v : Violation) : Data :=
  .record [("file", .text v.file), ("line", .number v.position.line),
    ("column", .number v.position.column), ("rule", .text v.rule.name),
    ("message", .text v.message), ("severity", .text v.severity.name),
    ("fixable", .flag v.fixable)]

end Violation

/-- A violation of a rule by a document, not yet marked as fixable. -/
def Rule.violation (rule : Rule) (doc : Document) (position : Position) (message : String) :
    Violation :=
  ⟨doc.path, position, rule, message, rule.severity, false⟩

/-- The processes that the rules on conventions apply to. -/
def Document.enabled (doc : Document) : List Process := doc.processes.filter (·.isEnabled)

end ProcessLint
