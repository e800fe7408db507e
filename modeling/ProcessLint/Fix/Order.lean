import ProcessLint.Fix.Basic
import ProcessLint.Rule.Check

/-!
Sorting the processes. The entries are cut out of the lines, each with the comments directly above
its key and at the key's indentation, and put back in the order of their names; what stands around
them stays. Only block mappings with one key to a line are sorted.
-/
namespace ProcessLint.Fix.Order

open Text

/-- A process and the lines it takes, from `start` up to `stop`. -/
structure Entry where
  name : String
  start : Nat
  stop : Nat
  deriving DecidableEq, Repr

/-- Lines from one number up to another; none if there are not that many. -/
def span (lines : Lines) (start stop : Nat) : Lines :=
  if start ≤ stop ∧ stop ≤ lines.length then (lines.take stop).drop start else []

def lineAt (lines : Lines) (index : Nat) : List Char := lines.getD index []

def indentOf (line : List Char) : Nat := (line.takeWhile (· = ' ')).length

def isComment (line : List Char) : Bool := (trimStart line).head? = some '#'

/-- How many lines at the end are blank. -/
def trailingBlanks (lines : Lines) : Nat := (lines.reverse.takeWhile isBlank).length

/-- The number of the line with the key of the processes. Behind the colon there may be nothing
but a comment. -/
def headerLine (doc : Document) (lines : Lines) : Except Reason Nat :=
  let position := doc.positionOfKey "processes"
  match position.line with
  | 0 => .error .processesNotFound
  | index + 1 =>
      match lines[index]? with
      | none => .error .processesNotFound
      | some line =>
          match splitFirst ':' (line.drop (position.column - 1)) with
          | none => .error .processesWithoutColon
          | some (_, rest) =>
              let rest := trim rest
              if rest.isEmpty || rest.head? = some '#' then .ok index
              else .error .processesNotBlock

/-- Names with the lines of their keys. Each key is on a line of its own, at its start, below the
one before, and all are at one column. -/
def keyLines (doc : Document) (lines : Lines) (previous : Nat) (column : Option Nat) :
    List String → Except Reason (List (String × Nat))
  | [] => .ok []
  | name :: names =>
      match doc.sourceMap.get? ["processes", name] with
      | none => .error (.noPosition name)
      | some position =>
          let index := position.line - 1
          if index ≤ previous then .error (.sharedLine name)
          else if column.getD position.column ≠ position.column then .error (.notAligned name)
          else if indentOf (lineAt lines index) + 1 ≠ position.column then
            .error (.notAtLineStart name)
          else do
            let rest ← keyLines doc lines index (some position.column) names
            return (name, index) :: rest

/-- Where the comments start that stand directly above line `start` at an indentation; not above
line `top`. -/
def commentStart (lines : Lines) (top indent : Nat) : Nat → Nat
  | 0 => 0
  | start + 1 =>
      let above := lineAt lines start
      if top < start + 1 ∧ isComment above ∧ indentOf above = indent then
        commentStart lines top indent start
      else start + 1

def entryStart (lines : Lines) (header key : Nat) : Nat :=
  commentStart lines (header + 1) (indentOf (lineAt lines key)) key

/-- Whether a line ends the last entry: content indented less than the key, or as much and no
comment. -/
def endsEntry (indent : Nat) (line : List Char) : Bool :=
  !isBlank line && (indentOf line < indent || (indentOf line = indent && !isComment line))

/-- The line behind the last entry, which has no blank lines at its end. -/
def lastStop (lines : Lines) (key : Nat) : Nat :=
  let indent := indentOf (lineAt lines key)
  let stop :=
    match (lines.drop (key + 1)).findIdx? (endsEntry indent) with
    | some offset => key + 1 + offset
    | none => lines.length
  stop - trailingBlanks (span lines key stop)

/-- The entries of keys; each goes up to the start of the next. -/
def entries (lines : Lines) (header : Nat) : List (String × Nat) → List Entry
  | [] => []
  | [(name, key)] => [⟨name, entryStart lines header key, lastStop lines key⟩]
  | (name, key) :: (next, nextKey) :: rest =>
      ⟨name, entryStart lines header key, entryStart lines header nextKey⟩ ::
        entries lines header ((next, nextKey) :: rest)

def block (lines : Lines) (entry : Entry) : Lines := span lines entry.start entry.stop

/-- An entry without the blank lines at its end. -/
def blockBody (lines : Lines) (entry : Entry) : Lines :=
  let block := block lines entry
  block.take (block.length - trailingBlanks block)

/-- The lines with the entries sorted by name. Between two entries stand as many blank lines as
there were behind the first one. -/
def sortLines (lines : Lines) (header : Nat) (entries : List Entry) : Lines :=
  let start := (entries.head?.map (·.start)).getD (header + 1)
  let stop := (entries.getLast?.map (·.stop)).getD (header + 1)
  let blanks := (entries.head?.map fun e => trailingBlanks (block lines e)).getD 0
  let sorted := entries.mergeSort fun a b => !(b.name < a.name)
  let bodies := sorted.map (blockBody lines)
  span lines 0 start ++ List.intercalate (List.replicate blanks []) bodies ++
    span lines stop lines.length

def apply (doc : Document) : Except Reason String :=
  if firstInversion doc.processOrder = none then .ok doc.text
  else do
    let ending := if doc.lineChars.isReturned then ['\r', '\n'] else ['\n']
    let lines := doc.lineChars.map (dropFinal '\r')
    let header ← headerLine doc lines
    let keys ← keyLines doc lines header none doc.processOrder
    return join ending (sortLines lines header (entries lines header keys))

end ProcessLint.Fix.Order
