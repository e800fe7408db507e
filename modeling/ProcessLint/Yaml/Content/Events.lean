import ProcessLint.Yaml.Content.Tokens

/-!
The content of the first document of a text as a sequence of events. Events read before a failure
are kept, because what they say may fail to decode before the failure is reached.
-/
namespace ProcessLint.Yaml.Content

inductive Event where
  /-- Stands for the node with this anchor number. -/
  | reference (number : Nat)
  | scalar (isPlain : Bool) (tag : Option String) (text : String)
  | sequenceStart (tag : Option String)
  | sequenceEnd
  | mappingStart (tag : Option String)
  | mappingEnd
  /-- The text holds no document. -/
  | absent
  deriving DecidableEq, Repr

inductive Failure where
  | rejected (rejection : Rejection)
  | unknownAnchor (mark : Mark)
  deriving DecidableEq, Repr

def Failure.message : Failure → String
  | rejected rejection => rejection.message
  | unknownAnchor mark => "unknown anchor" ++ placeText mark

structure Stream where
  events : List (Event × Mark)
  /-- The index of the event that each anchor number stands for; of two entries the first counts. -/
  targets : List (Nat × Nat)
  failure : Option Failure
  /-- Whether anything follows the first document. -/
  hasMore : Bool
  deriving Repr

structure Reader where
  scanner : Scanner
  /-- Tag handles and what they stand for. -/
  handles : List (String × String)
  /-- Anchor names and their numbers; of two entries the first counts. -/
  anchors : List (String × Nat)
  targets : List (Nat × Nat)
  /-- Events read, the last one first. -/
  reversed : List (Event × Mark)

abbrev Read := ExceptT Failure (StateM Reader)

namespace Read

def ofScan (scan : Scan α) : Read α := do
  match scan.run (← get).scanner with
  | .ok (a, scanner) =>
      modify fun r => { r with scanner }
      return a
  | .error rejection => throw (.rejected rejection)

def peek : Read (Mark × Token) := ofScan Scan.peekToken

def skip : Read Unit := ofScan Scan.skipToken

def emit (event : Event) (mark : Mark) : Read Unit :=
  modify fun r => { r with reversed := (event, mark) :: r.reversed }

def fail (problem : Problem) (mark : Mark) (context : Context) (start : Mark) : Read α :=
  throw (.rejected (.malformed problem mark (some (context, start))))

def failHere (problem : Problem) (mark : Mark) : Read α :=
  throw (.rejected (.malformed problem mark none))

/-- A node that is not written at all. -/
def emitAbsent (mark : Mark) : Read Unit := emit (.scalar true none "") mark

/-- Gives the node that comes next an anchor. Its number is how many names there are already, so a
name that is used again takes a number that a later name may take too. -/
def addAnchor (name : String) : Read Unit :=
  modify fun r =>
    let number := (r.anchors.map (·.1)).eraseDups.length
    { r with
      anchors := (name, number) :: r.anchors
      targets := (number, r.reversed.length) :: r.targets }

/-- Anchor and tag before a node. -/
structure Properties where
  anchor : Option String
  tag : Option (Mark × String × String)
  /-- Where the node starts. -/
  start : Mark

def properties : Read Properties := do
  match ← peek with
  | (start, .anchor name) =>
      skip
      match ← peek with
      | (mark, .tag handle suffix) =>
          skip
          return ⟨some name, some (mark, handle, suffix), start⟩
      | _ => return ⟨some name, none, start⟩
  | (start, .tag handle suffix) =>
      skip
      match ← peek with
      | (_, .anchor name) =>
          skip
          return ⟨some name, some (start, handle, suffix), start⟩
      | _ => return ⟨none, some (start, handle, suffix), start⟩
  | (start, _) => return ⟨none, none, start⟩

/-- The full text of a tag. -/
def resolveTag (p : Properties) : Read (Option String) := do
  match p.tag with
  | none => return none
  | some (mark, handle, suffix) =>
      if handle.isEmpty then return some suffix
      match (← get).handles.lookup handle with
      | some stem => return some (stem ++ suffix)
      | none => fail .undefinedHandle mark .node p.start

/-- A tag of one exclamation mark leaves a scalar without a tag. -/
def scalarTag (tag : Option String) : Option String := tag.filter (· ≠ "!")

mutual

/-- A node. Block collections may stand only where `block` says so, and a block sequence without
indentation of its own only where `indentless` says so. -/
def node : Nat → Bool → Bool → Read Unit
  | 0, _, _ => pure ()
  | n + 1, block, indentless => do
      match ← peek with
      | (mark, .reference name) =>
          match (← get).anchors.lookup name with
          | some number =>
              skip
              emit (.reference number) mark
          | none => throw (.unknownAnchor mark)
      | _ =>
          let p ← properties
          let tag ← resolveTag p
          let (mark, token) ← peek
          let name : Read Unit :=
            match p.anchor with
            | some name => addAnchor name
            | none => pure ()
          match token, block, indentless with
          | .blockEntry, _, true =>
              name
              emit (.sequenceStart tag) p.start
              indentlessSequence n
          | .scalar style text, _, _ =>
              skip
              name
              emit (.scalar (style = .plain) (scalarTag tag) text) p.start
          | .flowSequenceStart, _, _ =>
              skip
              name
              emit (.sequenceStart tag) p.start
              flowSequence n mark true
          | .flowMappingStart, _, _ =>
              skip
              name
              emit (.mappingStart tag) p.start
              flowMapping n mark true
          | .blockSequenceStart, true, _ =>
              skip
              name
              emit (.sequenceStart tag) p.start
              blockSequence n mark
          | .blockMappingStart, true, _ =>
              skip
              name
              emit (.mappingStart tag) p.start
              blockMapping n mark
          | _, _, _ =>
              if p.anchor.isSome || tag.isSome then
                name
                emit (.scalar true tag "") p.start
              else
                fail .nodeExpected mark (if block then .blockNode else .flowNode) p.start

def blockMapping : Nat → Mark → Read Unit
  | 0, _ => pure ()
  | n + 1, start => do
      match ← peek with
      | (mark, .key) =>
          skip
          match ← peek with
          | (_, .key) | (_, .value) | (_, .blockEnd) => emitAbsent mark.next
          | _ => node n true true
          match ← peek with
          | (mark, .value) =>
              skip
              match ← peek with
              | (_, .key) | (_, .value) | (_, .blockEnd) => emitAbsent mark.next
              | _ => node n true true
          | (mark, _) => emitAbsent mark
          blockMapping n start
      | (mark, .blockEnd) =>
          skip
          emit .mappingEnd mark
      | (mark, _) => fail .blockMappingKey mark .blockMapping start

def blockSequence : Nat → Mark → Read Unit
  | 0, _ => pure ()
  | n + 1, start => do
      match ← peek with
      | (mark, .blockEntry) =>
          skip
          match ← peek with
          | (_, .blockEntry) | (_, .blockEnd) => emitAbsent mark.next
          | _ => node n true false
          blockSequence n start
      | (mark, .blockEnd) =>
          skip
          emit .sequenceEnd mark
      | (mark, _) => fail .blockSequenceEntry mark .blockCollection start

def indentlessSequence : Nat → Read Unit
  | 0 => pure ()
  | n + 1 => do
      match ← peek with
      | (mark, .blockEntry) =>
          skip
          match ← peek with
          | (_, .blockEntry) | (_, .key) | (_, .value) | (_, .blockEnd) => emitAbsent mark.next
          | _ => node n true false
          indentlessSequence n
      | (mark, _) => emit .sequenceEnd mark

def flowSequence : Nat → Mark → Bool → Read Unit
  | 0, _, _ => pure ()
  | n + 1, start, first => do
      match ← peek with
      | (mark, .flowSequenceEnd) =>
          skip
          emit .sequenceEnd mark
      | (mark, token) =>
          if !first then
            if token = .flowEntry then skip
            else fail .flowSequenceSeparator mark .flowSequence start
          match ← peek with
          | (mark, .flowSequenceEnd) =>
              skip
              emit .sequenceEnd mark
          | (mark, .key) =>
              emit (.mappingStart none) mark
              skip
              flowPair n
              flowSequence n start false
          | _ =>
              node n false false
              flowSequence n start false

/-- The single pair of a mapping without braces. What stands for an absent key is passed over
together with it. -/
def flowPair : Nat → Read Unit
  | 0 => pure ()
  | n + 1 => do
      match ← peek with
      | (mark, .value) | (mark, .flowEntry) | (mark, .flowSequenceEnd) =>
          skip
          emitAbsent mark.next
      | _ => node n false false
      match ← peek with
      | (_, .value) =>
          skip
          match ← peek with
          | (mark, .flowEntry) | (mark, .flowSequenceEnd) => emitAbsent mark
          | _ => node n false false
      | (mark, _) => emitAbsent mark
      let (mark, _) ← peek
      emit .mappingEnd mark

def flowMapping : Nat → Mark → Bool → Read Unit
  | 0, _, _ => pure ()
  | n + 1, start, first => do
      match ← peek with
      | (mark, .flowMappingEnd) =>
          skip
          emit .mappingEnd mark
      | (mark, token) =>
          if !first then
            if token = .flowEntry then skip
            else fail .flowMappingSeparator mark .flowMapping start
          match ← peek with
          | (mark, .flowMappingEnd) =>
              skip
              emit .mappingEnd mark
          | (_, .key) =>
              skip
              match ← peek with
              | (mark, .value) | (mark, .flowEntry) | (mark, .flowMappingEnd) => emitAbsent mark
              | _ => node n false false
              match ← peek with
              | (_, .value) =>
                  skip
                  match ← peek with
                  | (mark, .flowEntry) | (mark, .flowMappingEnd) => emitAbsent mark
                  | _ => node n false false
              | (mark, _) => emitAbsent mark
              flowMapping n start false
          | _ =>
              node n false false
              let (mark, _) ← peek
              emitAbsent mark
              flowMapping n start false

end

/-- Handles that need no directive. -/
def standardHandles : List (String × String) := [("!", "!"), ("!!", "tag:yaml.org,2002:")]

def directives : Nat → Bool → List (String × String) → Read Unit
  | 0, _, _ => pure ()
  | n + 1, hasVersion, declared => do
      match ← peek with
      | (mark, .versionDirective major minor) =>
          if hasVersion then failHere .duplicateVersion mark
          if major ≠ 1 || (minor ≠ 1 && minor ≠ 2) then failHere .incompatibleVersion mark
          skip
          directives n true declared
      | (mark, .tagDirective handle stem) =>
          if (declared.lookup handle).isSome then failHere .duplicateTagDirective mark
          skip
          directives n hasVersion ((handle, stem) :: declared)
      | _ => modify fun r => { r with handles := declared ++ standardHandles }

def documentEnd : Read Unit := do
  match ← peek with
  | (_, .documentEnd) => skip
  | _ => pure ()

def document (fuel : Nat) : Read Unit := do
  match ← peek with
  | (mark, .streamEnd) => emit .absent mark
  | (_, .versionDirective _ _) | (_, .tagDirective _ _) | (_, .documentStart) =>
      directives fuel false []
      match ← peek with
      | (_, .documentStart) =>
          skip
          match ← peek with
          | (mark, .versionDirective _ _) | (mark, .tagDirective _ _) | (mark, .documentStart)
          | (mark, .documentEnd) | (mark, .streamEnd) => emitAbsent mark
          | _ => node fuel true false
          documentEnd
      | (mark, _) => failHere .documentStartExpected mark
  | _ =>
      node fuel true false
      documentEnd

/-- Whether anything follows behind the ends of the first document. -/
def hasMore : Nat → Read Bool
  | 0 => pure true
  | n + 1 => do
      match ← peek with
      | (_, .documentEnd) =>
          skip
          hasMore n
      | (_, token) => return token ≠ .streamEnd

end Read

/-- The first document of a text. The number of steps is bounded by the number of tokens, and that
by a multiple of the text's length. -/
def Stream.ofText (text : List Char) : Stream :=
  match forbiddenOffset? 0 text with
  | some offset => ⟨[], [], some (.rejected (.forbiddenCharacter offset)), true⟩
  | none =>
      let fuel := 16 * (text.length + 4)
      let reader : Reader := ⟨.ofText text, Read.standardHandles, [], [], []⟩
      match (Read.document fuel).run reader with
      | (.error failure, reader) => ⟨reader.reversed.reverse, reader.targets, some failure, true⟩
      | (.ok (), reader) =>
          let hasMore :=
            match ((Read.hasMore fuel).run reader).1 with
            | .ok hasMore => hasMore
            | .error _ => true
          ⟨reader.reversed.reverse, reader.targets, none, hasMore⟩

end ProcessLint.Yaml.Content
