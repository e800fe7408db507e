import ProcessLint.Yaml.Outline.Tokens

/-!
The outline of the first document of a text: its nodes as a sequence of events, each with the
mark of its token. A node that is left out reads as a scalar at the token that comes instead.
-/
namespace ProcessLint.Yaml.Outline

inductive Event where
  | scalar (text : String)
  /-- An alias. -/
  | reference
  | sequenceStart
  | sequenceEnd
  | mappingStart
  | mappingEnd
  deriving DecidableEq, Repr

structure Reader where
  scanner : Scanner
  anchors : List String
  /-- Tag handles that the last directive declared. -/
  handles : List String
  /-- Events read, the last one first. -/
  reversed : List (Event × Mark)

abbrev Read := StateT Reader (Except Malformed)

namespace Read

def ofScan (scan : Scan α) : Read α := do
  let r ← get
  let (a, scanner) ← scan.run r.scanner
  set { r with scanner }
  return a

def peek : Read (Mark × Token) := ofScan Scan.peekToken

def skip : Read Unit := ofScan Scan.skipToken

def emit (event : Event) (mark : Mark) : Read Unit :=
  modify fun r => { r with reversed := (event, mark) :: r.reversed }

def failAt (mark : Mark) (fault : Fault) : Read α := throw ⟨mark, fault⟩

/-- Text of a scalar that is not written at all. -/
def absentText : String := "~"

def emitAbsent (mark : Mark) : Read Unit := emit (.scalar absentText) mark

def addAnchor (name : String) : Read Unit :=
  modify fun r => { r with anchors := name :: r.anchors }

/-- A handle between two exclamation marks has to be declared, the empty one excepted. -/
def checkHandle (mark : Mark) (handle : String) : Read Unit := do
  let chars := handle.toList
  let isNamed := 2 < chars.length && chars.head? = some '!' && chars.getLast? = some '!'
  if isNamed && !(← get).handles.contains handle then failAt mark .undeclaredHandle

/-- Anchor and tag before a node, in either order; tells whether there is any. -/
def properties : Read Bool := do
  match ← peek with
  | (mark, .anchor name) =>
      skip
      addAnchor name
      match ← peek with
      | (_, .tag handle _) =>
          skip
          checkHandle mark handle
      | _ => pure ()
      return true
  | (mark, .tag handle _) =>
      skip
      checkHandle mark handle
      match ← peek with
      | (_, .anchor name) =>
          skip
          addAnchor name
      | _ => pure ()
      return true
  | _ => return false

mutual

/-- A node. Block collections may stand only where `block` says so, and a block sequence without
indentation of its own only where `indentless` says so. -/
def node : Nat → Bool → Bool → Read Unit
  | 0, _, _ => pure ()
  | n + 1, block, indentless => do
      match ← peek with
      | (mark, .reference name) =>
          skip
          if (← get).anchors.contains name then emit .reference mark else failAt mark .unknownAnchor
      | _ =>
          let isNamed ← properties
          let (mark, token) ← peek
          match token, block, indentless with
          | .scalar _ text, _, _ =>
              skip
              emit (.scalar text) mark
          | .flowSequenceStart, _, _ =>
              skip
              emit .sequenceStart mark
              flowSequence n true
          | .flowMappingStart, _, _ =>
              skip
              emit .mappingStart mark
              flowMapping n true
          | .blockSequenceStart, true, _ =>
              skip
              emit .sequenceStart mark
              blockSequence n
          | .blockMappingStart, true, _ =>
              skip
              emit .mappingStart mark
              blockMapping n
          | .blockEntry, _, true =>
              emit .sequenceStart mark
              indentlessSequence n
          | _, _, _ => if isNamed then emit (.scalar "") mark else failAt mark .nodeExpected

def blockMapping : Nat → Read Unit
  | 0 => pure ()
  | n + 1 => do
      match ← peek with
      | (_, .key) =>
          skip
          match ← peek with
          | (mark, .key) | (mark, .value) | (mark, .blockEnd) => emitAbsent mark
          | _ => node n true true
          blockMappingValue n
          blockMapping n
      | (mark, .value) =>
          emitAbsent mark
          blockMappingValue n
          blockMapping n
      | (mark, .blockEnd) =>
          skip
          emit .mappingEnd mark
      | (mark, _) => failAt mark .blockMappingKey

def blockMappingValue : Nat → Read Unit
  | 0 => pure ()
  | n + 1 => do
      match ← peek with
      | (_, .value) =>
          skip
          match ← peek with
          | (mark, .key) | (mark, .value) | (mark, .blockEnd) => emitAbsent mark
          | _ => node n true true
      | (mark, _) => emitAbsent mark

def blockSequence : Nat → Read Unit
  | 0 => pure ()
  | n + 1 => do
      match ← peek with
      | (mark, .blockEnd) =>
          skip
          emit .sequenceEnd mark
      | (_, .blockEntry) =>
          skip
          match ← peek with
          | (mark, .blockEntry) | (mark, .blockEnd) => emitAbsent mark
          | _ => node n true false
          blockSequence n
      | (mark, _) => failAt mark .blockSequenceEntry

def indentlessSequence : Nat → Read Unit
  | 0 => pure ()
  | n + 1 => do
      match ← peek with
      | (_, .blockEntry) =>
          skip
          match ← peek with
          | (mark, .blockEntry) | (mark, .key) | (mark, .value) | (mark, .blockEnd) =>
              emitAbsent mark
          | _ => node n true false
          indentlessSequence n
      | (mark, _) => emit .sequenceEnd mark

def flowSequence : Nat → Bool → Read Unit
  | 0, _ => pure ()
  | n + 1, first => do
      match ← peek with
      | (mark, .flowSequenceEnd) =>
          skip
          emit .sequenceEnd mark
      | (mark, token) =>
          if !first then
            if token = .flowEntry then skip else failAt mark .flowSequenceSeparator
          match ← peek with
          | (mark, .flowSequenceEnd) =>
              skip
              emit .sequenceEnd mark
          | (mark, .key) =>
              skip
              emit .mappingStart mark
              flowPair n
              flowSequence n false
          | _ =>
              node n false false
              flowSequence n false

/-- The single pair of a mapping without braces. What stands for an absent key is passed over
together with it. -/
def flowPair : Nat → Read Unit
  | 0 => pure ()
  | n + 1 => do
      match ← peek with
      | (mark, .value) | (mark, .flowEntry) | (mark, .flowSequenceEnd) =>
          skip
          emitAbsent mark
      | _ => node n false false
      match ← peek with
      | (_, .value) =>
          skip
          match ← peek with
          | (mark, .flowEntry) | (mark, .flowSequenceEnd) => emitAbsent mark
          | _ => node n false false
      | (mark, _) => emitAbsent mark
      let (mark, _) ← peek
      emit .mappingEnd mark

def flowMapping : Nat → Bool → Read Unit
  | 0, _ => pure ()
  | n + 1, first => do
      match ← peek with
      | (mark, .flowMappingEnd) =>
          skip
          emit .mappingEnd mark
      | (mark, token) =>
          if !first then
            if token = .flowEntry then skip else failAt mark .flowMappingSeparator
          match ← peek with
          | (_, .key) =>
              skip
              match ← peek with
              | (mark, .value) | (mark, .flowEntry) | (mark, .flowMappingEnd) => emitAbsent mark
              | _ => node n false false
              flowMappingValue n
              flowMapping n false
          | (mark, .value) =>
              emitAbsent mark
              flowMappingValue n
              flowMapping n false
          | (mark, .flowMappingEnd) =>
              skip
              emit .mappingEnd mark
          | _ =>
              node n false false
              let (mark, _) ← peek
              emitAbsent mark
              flowMapping n false

def flowMappingValue : Nat → Read Unit
  | 0 => pure ()
  | n + 1 => do
      match ← peek with
      | (mark, .value) =>
          skip
          match ← peek with
          | (_, .flowEntry) | (_, .flowMappingEnd) => emitAbsent mark
          | _ => node n false false
      | (mark, _) => emitAbsent mark

end

/-- Directives before a document. Only the last one counts. -/
def directives : Nat → Bool → Read Unit
  | 0, _ => pure ()
  | n + 1, hasVersion => do
      match ← peek with
      | (mark, .versionDirective _ _) =>
          if hasVersion then failAt mark .duplicateVersion
          modify fun r => { r with handles := [] }
          skip
          directives n true
      | (_, .tagDirective handle _) =>
          modify fun r => { r with handles := [handle] }
          skip
          directives n hasVersion
      | _ => pure ()

def skipDocumentEnds : Nat → Read Unit
  | 0 => pure ()
  | n + 1 => do
      match ← peek with
      | (_, .documentEnd) =>
          skip
          skipDocumentEnds n
      | _ => pure ()

/-- What follows the first document may not be a directive unless three points stand between. -/
def documentEnd : Read Unit := do
  match ← peek with
  | (mark, .versionDirective _ _) | (mark, .tagDirective _ _) =>
      failAt mark .directiveAfterContent
  | _ => pure ()

def document (fuel : Nat) : Read Unit := do
  skipDocumentEnds fuel
  match ← peek with
  | (_, .streamEnd) => pure ()
  | (_, .versionDirective _ _) | (_, .tagDirective _ _) | (_, .documentStart) =>
      directives fuel false
      match ← peek with
      | (_, .documentStart) =>
          skip
          match ← peek with
          | (mark, .versionDirective _ _) | (mark, .tagDirective _ _) | (mark, .documentStart)
          | (mark, .documentEnd) | (mark, .streamEnd) => emitAbsent mark
          | _ => node fuel true false
          documentEnd
      | (mark, _) => failAt mark .documentStartExpected
  | _ =>
      node fuel true false
      documentEnd

end Read

/-- The events of the first document. The number of steps is bounded by the number of tokens, and
that by a multiple of the text's length. -/
def read (text : List Char) : Except Malformed (List (Event × Mark)) := do
  let reader : Reader := ⟨.ofText text, [], [], []⟩
  let ((), reader) ← (Read.document (16 * (text.length + 4))).run reader
  return reader.reversed.reverse

end ProcessLint.Yaml.Outline
