import ProcessLint.Document.Parse
import ProcessLint.Fix.Order
import ProcessLint.Fix.Version

/-!
Running fixes one after another. After each the text is read again; a fix whose output is no
document, or that changes a process, leaves no trace but its outcome.
-/
namespace ProcessLint

/-- The text after a fix, which is the same if there is nothing to mend. -/
def Fix.apply (fix : Fix) (doc : Document) : Except Fix.Reason String :=
  match fix with
  | .version => Version.apply doc
  | .sortProcesses => Order.apply doc

namespace Document

/-- The first process that the other document does not have or has otherwise, or else the first
that only the other has. -/
def changedProcess? (before after : Document) : Option String :=
  let lost := before.processes.find? fun p => after.process? p.name ≠ some p
  let added := after.processes.find? fun p => (before.process? p.name).isNone
  (lost <|> added).map (·.name)

def parseText (path text : String) : Except ParseError Document :=
  (Document.ofText path text).mapError (ParseError.mk path)

end Document

/-- What trying a fix came to. -/
inductive Attempt where
  | clean
  | applied (fixed : Document)
  | changesProcess (fixed : Document) (name : String)
  | unparsable (error : ParseError)
  | declined (reason : Fix.Reason)

namespace Attempt

/-- Why the document stays as it is although there was something to mend. -/
def skipReason? : Attempt → Option String
  | clean | applied _ => none
  | changesProcess _ name => some s!"fixed output changes process '{name}'"
  | unparsable error => some s!"fixed output does not parse: {error.message}"
  | declined reason => some reason.message

/-- The document to go on with. -/
def result (doc : Document) : Attempt → Document
  | applied fixed => fixed
  | _ => doc

def isApplied : Attempt → Bool
  | applied _ => true
  | _ => false

end Attempt

def Fix.attempt (fix : Fix) (doc : Document) : Attempt :=
  match fix.apply doc with
  | .error reason => .declined reason
  | .ok text =>
      if text = doc.text then .clean
      else match Document.parseText doc.path text with
        | .error error => .unparsable error
        | .ok fixed =>
            match doc.changedProcess? fixed with
            | some name => .changesProcess fixed name
            | none => .applied fixed

structure FixReport where
  document : Document
  attempts : List (Fix × Attempt)

namespace FixReport

/-- The final text. -/
def content (report : FixReport) : String := report.document.text

def changed (report : FixReport) : Bool := report.attempts.any (·.2.isApplied)

end FixReport

/-- Tries fixes in order, each on what the one before left. -/
def Document.runFixes (doc : Document) : List Fix → FixReport
  | [] => ⟨doc, []⟩
  | fix :: fixes =>
      let attempt := fix.attempt doc
      let report := Document.runFixes (attempt.result doc) fixes
      { report with attempts := (fix, attempt) :: report.attempts }

/-- Reads a document and applies the fixes of a rule set. -/
def RuleSet.fix (set : RuleSet) (path : String) (bytes : ByteArray) :
    Except ParseError FixReport := do
  let doc ← Document.parse path bytes
  return doc.runFixes set.fixes

end ProcessLint
