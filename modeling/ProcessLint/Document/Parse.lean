import ProcessLint.Document.Decode
import ProcessLint.Text.Utf8

/-!
Documents from bytes. The text is read twice, for the positions of its keys and for its content,
and both readings must succeed. Only the structure is checked here; what a document means is left
to the rules.
-/
namespace ProcessLint

open Yaml

/-- Why a file cannot be read at all. -/
inductive ReadFault where
  | notFound
  | isDirectory
  /-- A name is looked up where a file is. -/
  | notADirectory
  | tooManyLinks
  /-- What else the system has against it, in its own words. -/
  | refused (message : String)
  deriving DecidableEq, Repr

def ReadFault.message : ReadFault → String
  | notFound => "No such file or directory (os error 2)"
  | isDirectory => "Is a directory (os error 21)"
  | notADirectory => "Not a directory (os error 20)"
  | tooManyLinks => "Too many levels of symbolic links (os error 40)"
  | refused message => message

inductive ParseCause where
  | unreadable (fault : ReadFault)
  | encoding (fault : Text.Utf8.Fault)
  | malformed (position : Position) (fault : Outline.Fault)
  | notAMapping
  | schema (fault : Content.DecodeFault)
  | process (name : String) (fault : Mismatch)
  deriving Repr

structure ParseError where
  path : String
  cause : ParseCause
  deriving Repr

namespace ParseError

/-- The text of the fault below, if there is one. -/
def source? (e : ParseError) : Option String :=
  match e.cause with
  | .unreadable fault => some fault.message
  | .encoding fault => some fault.message
  | .schema fault => some fault.message
  | .process _ fault => some fault.message
  | .malformed _ _ | .notAMapping => none

def message (e : ParseError) : String :=
  match e.cause with
  | .unreadable fault => s!"could not read {e.path}: {fault.message}"
  | .encoding fault => s!"{e.path} is not valid UTF-8: {fault.message}"
  | .malformed position fault =>
      s!"{e.path}:{position.line}:{position.column}: malformed YAML: {fault.message}"
  | .notAMapping => s!"{e.path}: top level must be a mapping"
  | .schema fault => s!"{e.path}: invalid document: {fault.message}"
  | .process name fault => s!"{e.path}: invalid process '{name}': {fault.message}"

end ParseError

/-- What the content of a document declares. -/
structure Declarations where
  version : String
  envFiles : List String
  processes : List Process
  deriving DecidableEq, Repr

namespace Declarations

def empty : Declarations := ⟨"", [], []⟩

/-- The version as text: strings without white space around them, other scalars as they are
printed. -/
def versionOf : Option Value → Except ParseCause String
  | none | some .null => .ok ""
  | some (.string s) => .ok s.trimSpace
  | some (.number n) => .ok n.text
  | some (.bool b) => .ok (toString b)
  | some v => .error (.schema (.mismatch (.version v) none))

def processOf (entry : Value × Value) : Except ParseCause Process :=
  match entry.1 with
  | .string name =>
      if name = "" then .error (.process entry.1.debugText .processName)
      else (Decode.process name entry.2).mapError (.process name)
  | key => .error (.process key.debugText .processName)

def ofText (text : List Char) : Except ParseCause Declarations := do
  let raw ← (RawDocument.ofText text).mapError ParseCause.schema
  let version ← versionOf (raw.version.getD none)
  let envFiles := (raw.envFiles.getD []).filter (!·.isBlank)
  let processes ← (raw.processes.getD []).mapM processOf
  return ⟨version, envFiles, processes⟩

end Declarations

namespace Document

/-- The document that a text holds, or the first reason why it holds none. -/
def ofText (path text : String) : Except ParseCause Document := do
  let chars := text.toList
  let events ← (Outline.read chars).mapError fun m => .malformed (.ofMark m.mark) m.fault
  let (root, sourceMap) := SourceMap.ofEvents events
  let declared ← match root with
    | .absent => .ok .empty
    | .other => .error .notAMapping
    | .mapping => Declarations.ofText chars
  return ⟨path, declared.version, declared.envFiles, text, sourceMap, declared.processes⟩

/-- Reads a document. The path is only for messages. -/
def parse (path : String) (bytes : ByteArray) : Except ParseError Document :=
  Except.mapError (ParseError.mk path) do
    let text ← (Text.Utf8.decode bytes).mapError ParseCause.encoding
    ofText path text

end Document

end ProcessLint
