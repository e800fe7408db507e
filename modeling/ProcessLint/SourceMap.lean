import ProcessLint.Yaml.Outline.Events

/-!
Where the keys and items of a document stand in its text. The map is collected from the events
of the outline: every scalar key and every sequence item gives its path, the segments from the
root down to it, the position of its token.
-/
namespace ProcessLint

open Yaml

/-- A place in a text, both numbers counted from one; zero stands for unknown. -/
structure Position where
  line : Nat
  column : Nat
  deriving DecidableEq, Repr

namespace Position

def unknown : Position := ⟨0, 0⟩

def ofMark (mark : Mark) : Position := ⟨mark.line, mark.column + 1⟩

end Position

/-- All recorded positions with their paths, in document order. -/
structure SourceMap where
  entries : List (List String × Position)
  deriving DecidableEq, Repr

namespace SourceMap

/-- The first position recorded for a path. -/
def get? (map : SourceMap) (path : List String) : Option Position :=
  map.entries.lookup path

/-- What is recorded directly under the top-level key of the processes, in document order. -/
def processOrder (map : SourceMap) : List String :=
  map.entries.filterMap fun
    | (["processes", name], _) => some name
    | _ => none

end SourceMap

/-- What the root of a document is. -/
inductive RootKind where
  | absent
  | mapping
  | other
  deriving DecidableEq, Repr

namespace SourceMap

/-- An open collection. A mapping keeps the key whose value comes next, a sequence the index of
its next item. -/
inductive Frame where
  | mapping (pending : Option String)
  | sequence (next : Nat)
  deriving DecidableEq, Repr

structure OpenNode where
  frame : Frame
  /-- Whether this collection adds a segment to the paths inside it. -/
  segment : Bool
  /-- Whether it is itself the key of a mapping. -/
  isKey : Bool
  deriving DecidableEq, Repr

/-- What the next node is to the innermost open collection. -/
inductive Slot where
  | root
  | key
  | value (key : String)
  | item (index : Nat)
  deriving DecidableEq, Repr

/-- The slot of the next node, and the open collections once it is taken. -/
def takeSlot : List OpenNode → Slot × List OpenNode
  | [] => (.root, [])
  | node :: outer =>
      match node.frame with
      | .mapping none => (.key, node :: outer)
      | .mapping (some key) => (.value key, { node with frame := .mapping none } :: outer)
      | .sequence next => (.item next, { node with frame := .sequence (next + 1) } :: outer)

/-- Makes the value of `key` the next node of the innermost collection, if that is a mapping. -/
def setPending (key : String) : List OpenNode → List OpenNode
  | node :: outer =>
      match node.frame with
      | .mapping _ => { node with frame := .mapping (some key) } :: outer
      | .sequence _ => node :: outer
  | [] => []

/-- Stands in a path for a key that is a collection. -/
def complexKey : String := "<complex>"

/-- Stands in a path for a key that is an alias. -/
def aliasKey : String := "*"

structure Collector where
  /-- Open collections, innermost first. -/
  stack : List OpenNode
  /-- The path of the innermost open collection. -/
  path : List String
  root : RootKind
  /-- Recorded positions, the last one first. -/
  reversed : List (List String × Position)
  deriving DecidableEq, Repr

namespace Collector

def empty : Collector := ⟨[], [], .absent, []⟩

def record (c : Collector) (segment : String) (mark : Mark) : Collector :=
  { c with reversed := (c.path ++ [segment], .ofMark mark) :: c.reversed }

/-- A scalar, or an alias, which counts as one. -/
def leaf (c : Collector) (text : String) (kind : RootKind) (mark : Mark) : Collector :=
  let (slot, stack) := takeSlot c.stack
  match slot with
  | .root => { c with stack, root := kind }
  | .key => { c.record text mark with stack := setPending text stack }
  | .value _ => { c with stack }
  | .item index => { c.record (toString index) mark with stack }

def enter (c : Collector) (frame : Frame) (kind : RootKind) (mark : Mark) : Collector :=
  let (slot, stack) := takeSlot c.stack
  match slot with
  | .root => { c with stack := ⟨frame, false, false⟩ :: stack, root := kind }
  | .key => { c with stack := ⟨frame, true, true⟩ :: stack, path := c.path ++ [complexKey] }
  | .value key => { c with stack := ⟨frame, true, false⟩ :: stack, path := c.path ++ [key] }
  | .item index =>
      { c.record (toString index) mark with
        stack := ⟨frame, true, false⟩ :: stack
        path := c.path ++ [toString index] }

def leave (c : Collector) : Collector :=
  match c.stack with
  | [] => c
  | node :: outer =>
      { c with
        stack := if node.isKey then setPending complexKey outer else outer
        path := if node.segment then c.path.dropLast else c.path }

def step (c : Collector) : Outline.Event × Mark → Collector
  | (.scalar text, mark) => c.leaf text (if isNullText text then .absent else .other) mark
  | (.reference, mark) => c.leaf aliasKey .other mark
  | (.sequenceStart, mark) => c.enter (.sequence 0) .other mark
  | (.mappingStart, mark) => c.enter (.mapping none) .mapping mark
  | (.sequenceEnd, _) | (.mappingEnd, _) => c.leave

end Collector

/-- The kind of the root and the positions of a document, from its events. -/
def ofEvents (events : List (Outline.Event × Mark)) : RootKind × SourceMap :=
  let collected := events.foldl Collector.step .empty
  (collected.root, ⟨collected.reversed.reverse⟩)

end SourceMap

end ProcessLint
