import ProcessLint.Document.Basic
import ProcessLint.Rule.Basic

/-!
What fixes share: the reasons for which one declines, and a text as lines.
-/
namespace ProcessLint

namespace Fix

inductive Reason where
  -- Version
  | versionOutside
  | versionWithoutColon
  | versionValue (value : List Char)
  | rootNotBlock
  -- Order
  | processesNotFound
  | processesWithoutColon
  | processesNotBlock
  | noPosition (name : String)
  | sharedLine (name : String)
  | notAligned (name : String)
  | notAtLineStart (name : String)
  deriving DecidableEq, Repr

def Reason.message : Reason → String
  | versionOutside => "version key is outside the document"
  | versionWithoutColon => "version key line has no ':'"
  | versionValue value => s!"cannot rewrite version value '{String.ofList value}'"
  | rootNotBlock => "top-level mapping is not in block style"
  | processesNotFound => "processes key not found in source"
  | processesWithoutColon => "processes key line has no ':'"
  | processesNotBlock => "processes is not a block-style mapping"
  | noPosition name => s!"no source position for '{name}'"
  | sharedLine name => s!"'{name}' shares a line with another entry"
  | notAligned name => s!"'{name}' is not aligned with the other entries"
  | notAtLineStart name => s!"'{name}' does not start its line"

/-- How a declined fix is reported when it is asked for alone. -/
def declinedMessage (fix : Fix) (reason : Reason) : String :=
  s!"{fix.name}: no change made: {reason.message}"

/-- A text as lines without their line feeds. -/
abbrev Lines := List (List Char)

/-- Whether the first line ends with a carriage return. -/
def Lines.isReturned (lines : Lines) : Bool := lines.head?.any (·.getLast? = some '\r')

def join (separator : List Char) (lines : Lines) : String :=
  String.ofList (List.intercalate separator lines)

end Fix

def Document.lineChars (doc : Document) : Fix.Lines := doc.text.toList.splitOn '\n'

end ProcessLint
