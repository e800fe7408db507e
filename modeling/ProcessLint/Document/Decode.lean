import ProcessLint.Document.Basic
import ProcessLint.Yaml.Content.Values

/-!
The fields of a document and of its processes from values. Fields that are not known are passed
over; of two faults the one that stands first in the text is reported.
-/
namespace ProcessLint

open Yaml

namespace Decode

def text (v : Value) : Except Mismatch String :=
  match v.untag with
  | .string s => .ok s
  | other => .error (.wrongType (.ofValue other) .text)

def boolean (v : Value) : Except Mismatch Bool :=
  match v.untag with
  | .bool b => .ok b
  | other => .error (.wrongType (.ofValue other) .boolean)

/-- A number without a sign, of 64 bits. -/
def unsigned (v : Value) : Except Mismatch Nat :=
  match v.untag with
  | .number (.integer n) =>
      if 0 ≤ n then .ok n.toNat else .error (.wrongValue (.integer n) .unsigned)
  | other => .error (.wrongType (.ofValue other) .unsigned)

/-- The largest number with a sign, of 64 bits. -/
def maxSigned : Int := 9223372036854775807

def signed (v : Value) : Except Mismatch Int :=
  match v.untag with
  | .number (.integer n) =>
      if n ≤ maxSigned then .ok n else .error (.wrongValue (.integer n) .signed)
  | other => .error (.wrongType (.ofValue other) .signed)

def optional (decode : Value → Except Mismatch α) : Value → Except Mismatch (Option α)
  | .null => .ok none
  | v => some <$> decode v

def texts (v : Value) : Except Mismatch (List String) :=
  match v.untag with
  | .sequence items => items.mapM text
  | .null => .ok []
  | other => .error (.wrongType (.ofValue other) .sequence)

mutual

/-- Whether a tag of the document's own stands anywhere in a value. -/
def hasTag : Value → Bool
  | .tagged _ _ => true
  | .sequence items => anyTag items
  | .mapping entries => entriesTag entries
  | _ => false

def anyTag : List Value → Bool
  | [] => false
  | item :: rest => hasTag item || anyTag rest

def entriesTag : List (Value × Value) → Bool
  | [] => false
  | entry :: rest => entryTag entry || entriesTag rest

def entryTag : Value × Value → Bool
  | (key, value) => hasTag key || hasTag value

end

def numberOrText (v : Value) : Except Mismatch NumberOrText :=
  if hasTag v then .error .tagInChoice
  else match v with
    | .number (.integer n) =>
        if n ≤ maxSigned then .ok (.number n) else .error (.noAlternative "IntOrString")
    | .string s => .ok (.text s)
    | _ => .error (.noAlternative "IntOrString")

/-- How a field of a record is set from a value; `none` for a field that is not known. -/
abbrev Fields (α : Type) := String → Option (Value → α → Except Mismatch α)

def entries (fields : Fields α) :
    List (Value × Value) → List String → α → Except Mismatch α
  | [], _, a => .ok a
  | (key, value) :: rest, seen, a =>
      match key.untag with
      | .string name =>
          match fields name with
          | none => entries fields rest seen a
          | some set =>
              if seen.contains name then .error (.duplicateField name)
              else do entries fields rest (name :: seen) (← set value a)
      | other => .error (.wrongType (.ofValue other) .fieldName)

/-- A record from a mapping. Nothing at all leaves every field as it is. -/
def record (name : String) (fields : Fields α) (start : α) (v : Value) : Except Mismatch α :=
  match v.untag with
  | .mapping pairs => entries fields pairs [] start
  | .null => .ok start
  | other => .error (.wrongType (.ofValue other) (.record name))

/-- A field that is decoded on its own and then set. -/
def field (decode : Value → Except Mismatch β) (set : α → β → α) :
    Option (Value → α → Except Mismatch α) :=
  some fun v a => set a <$> decode v

def condition : Value → Except Mismatch Condition :=
  record "DependencyEntry"
    (fun
      | "condition" => field text fun _ tag => Condition.ofTag tag
      | _ => none)
    .started

def dependency (entry : Value × Value) : Except Mismatch Dependency :=
  match entry.1 with
  | .string name => do
      let condition ← optional condition entry.2
      return ⟨name, condition.getD .started⟩
  | key => .error (.dependencyName key)

def dependencies (v : Value) : Except Mismatch (List Dependency) :=
  match v.untag with
  | .mapping entries => entries.mapM dependency
  | .null => .ok []
  | other => .error (.wrongType (.ofValue other) .mapping)

def httpProbe : Value → Except Mismatch HttpProbe :=
  record "HttpProbe"
    (fun
      | "scheme" => field (optional text) fun p scheme => { p with scheme }
      | "host" => field (optional text) fun p host => { p with host }
      | "port" => field (optional numberOrText) fun p port => { p with port }
      | "path" => field (optional text) fun p path => { p with path }
      | _ => none)
    ⟨none, none, none, none⟩

def execProbe : Value → Except Mismatch ExecProbe :=
  record "ExecProbe"
    (fun
      | "command" => field text fun p command => { p with command }
      | "working_dir" => field (optional text) fun p workingDir => { p with workingDir }
      | _ => none)
    ⟨"", none⟩

def readinessProbe : Value → Except Mismatch ReadinessProbe :=
  record "ReadinessProbe"
    (fun
      | "http_get" => field (optional httpProbe) fun p httpGet => { p with httpGet }
      | "exec" => field (optional execProbe) fun p exec => { p with exec }
      | "initial_delay_seconds" =>
          field (optional unsigned) fun p seconds => { p with initialDelaySeconds := seconds }
      | "period_seconds" =>
          field (optional unsigned) fun p seconds => { p with periodSeconds := seconds }
      | "timeout_seconds" =>
          field (optional unsigned) fun p seconds => { p with timeoutSeconds := seconds }
      | "success_threshold" =>
          field (optional unsigned) fun p count => { p with successThreshold := count }
      | "failure_threshold" =>
          field (optional unsigned) fun p count => { p with failureThreshold := count }
      | _ => none)
    ⟨none, none, none, none, none, none, none⟩

def schedule : Value → Except Mismatch Schedule :=
  record "Schedule"
    (fun
      | "cron" => field (optional text) fun s cron => { s with cron }
      | "timezone" => field (optional text) fun s timezone => { s with timezone }
      | "interval" => field (optional text) fun s interval => { s with interval }
      | "run_on_start" => field boolean fun s runOnStart => { s with runOnStart }
      | "max_concurrent" => field (optional signed) fun s count => { s with maxConcurrent := count }
      | _ => none)
    ⟨none, none, none, false, none⟩

def availability : Value → Except Mismatch Availability :=
  record "Availability"
    (fun
      | "restart" => field (optional text) fun a restart => { a with restart }
      | "backoff_seconds" =>
          field (optional unsigned) fun a seconds => { a with backoffSeconds := seconds }
      | "max_restarts" => field (optional unsigned) fun a count => { a with maxRestarts := count }
      | _ => none)
    ⟨none, none, none⟩

def shutdown : Value → Except Mismatch Shutdown :=
  record "Shutdown"
    (fun
      | "signal" => field (optional numberOrText) fun s signal => { s with signal }
      | "timeout_seconds" =>
          field (optional unsigned) fun s seconds => { s with timeoutSeconds := seconds }
      | "command" => field (optional text) fun s command => { s with command }
      | _ => none)
    ⟨none, none, none⟩

def process (name : String) : Value → Except Mismatch Process :=
  record "Process"
    (fun
      | "command" => field text fun p command => { p with command }
      | "disabled" => field boolean fun p disabled => { p with disabled }
      | "namespace" => field (optional text) fun p namespaceName => { p with namespaceName }
      | "depends_on" => field dependencies fun p dependsOn => { p with dependsOn }
      | "readiness_probe" =>
          field (optional readinessProbe) fun p readinessProbe => { p with readinessProbe }
      | "schedule" => field (optional schedule) fun p schedule => { p with schedule }
      | "availability" =>
          field (optional availability) fun p availability => { p with availability }
      | "shutdown" => field (optional shutdown) fun p shutdown => { p with shutdown }
      | "environment" => field texts fun p environment => { p with environment }
      | _ => none)
    (.named name)

end Decode

/-- The top-level fields of a document as they are read; `none` for a field that is absent. -/
structure RawDocument where
  version : Option (Option Value)
  envFiles : Option (List String)
  processes : Option (List (Value × Value))
  deriving Repr

namespace RawDocument

open Yaml.Content Yaml.Content.Decode

/-- Collections may lie at most this deep, the root included. -/
def maxDepth : Nat := 128

def empty : RawDocument := ⟨none, none, none⟩

/-- One file or a list of files. -/
def filesOf (v : Value) : Option (List String) :=
  match v with
  | .string file => some [file]
  | .sequence items =>
      items.mapM fun
        | .string file => some file
        | _ => none
  | _ => none

def readEnvFiles (stream : Stream) (path : Path) (depth : Nat) : Content.Decode (List String) := do
  let v ← optional stream (value stream .content (fuel stream depth) path depth)
  match v with
  | none => return []
  | some v =>
      match filesOf v with
      | some files => return files
      | none => mismatch (.noAlternative "StringOrList")

/-- The fields up to the end of the root. `key` is the segment of the value that follows. -/
def fields (stream : Stream) (depth : Nat) : Nat → RawDocument → Content.Decode RawDocument
  | 0, _ => throw .endOfEvents
  | n + 1, raw => do
      match (← peek stream).1 with
      | .mappingEnd | .absent =>
          skip
          return raw
      | event =>
          let path : Path :=
            match event with
            | .scalar _ _ text => [.key text]
            | _ => [.unnamed]
          match ← fieldName stream [] with
          | "version" =>
              if raw.version.isSome then mismatch (.duplicateField "version")
              let version ←
                optional stream (value stream .value (fuel stream depth) path depth)
              fields stream depth n { raw with version := some version }
          | "env_file" | "dotenv" =>
              if raw.envFiles.isSome then mismatch (.duplicateField "env_file")
              let files ← readEnvFiles stream path depth
              fields stream depth n { raw with envFiles := some files }
          | "processes" =>
              if raw.processes.isSome then mismatch (.duplicateField "processes")
              let processes ← optional stream (mapping stream path depth)
              fields stream depth n { raw with processes := some (processes.getD []) }
          | _ =>
              ignore stream
              fields stream depth n raw

def root (stream : Stream) : Content.Decode RawDocument := do
  let (event, mark) ← next stream
  placed [] mark do
    match event with
    | .mappingStart _ =>
        let depth ← deeper maxDepth mark
        fields stream depth (stream.events.length + 1) empty
    | .absent => return empty
    | .scalar true _ "" => return empty
    | _ => wrongEvent event (.record "RawDocument")

/-- The fields of the one document that a text may hold. -/
def ofText (text : List Char) : Except DecodeFault RawDocument := do
  let stream := Stream.ofText text
  let (raw, _) ← (root stream).run ⟨stream.events, 0⟩
  match stream.failure with
  | some failure => .error (.failure failure)
  | none => if stream.hasMore then .error .manyDocuments else .ok raw

end RawDocument

end ProcessLint
