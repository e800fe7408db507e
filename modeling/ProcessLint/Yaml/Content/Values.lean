import ProcessLint.Yaml.Content.Events
import ProcessLint.Yaml.Scalar

/-!
Values from the events of a document. Reading goes from event to event, so the first thing that
is wrong in the order of the text is the one reported. An alias reads the node that it stands for
once more.
-/
namespace ProcessLint.Yaml.Content

/-- A step from a collection to one of its nodes. -/
inductive Segment where
  | key (text : String)
  | item (index : Nat)
  /-- The value of a key that is no scalar. -/
  | unnamed
  deriving DecidableEq, Repr

/-- The steps from the root to a node, the last one first. -/
abbrev Path := List Segment

def Path.text : Path → String
  | [] => "."
  | [.key key] => key
  | [.unnamed] => "?"
  | .key key :: outer => Path.text outer ++ "." ++ key
  | .unnamed :: outer => Path.text outer ++ ".?"
  | .item index :: outer => Path.text outer ++ s!"[{index}]"

inductive DecodeFault where
  /-- A value of the wrong kind, with its place once that is known. -/
  | mismatch (cause : Mismatch) (place : Option (Path × Mark))
  | failure (cause : Failure)
  | tooDeep (mark : Mark)
  | tooManyAliases
  | endOfEvents
  | manyDocuments
  deriving Repr

namespace DecodeFault

def message : DecodeFault → String
  | mismatch cause none => cause.message
  | mismatch cause (some (path, mark)) =>
      let stem := if path.text = "." then "" else path.text ++ ": "
      stem ++ cause.message ++ placeText mark
  | failure cause => cause.message
  | tooDeep mark => "recursion limit exceeded" ++ placeText mark
  | tooManyAliases => "repetition limit exceeded"
  | endOfEvents => "EOF while parsing a value"
  | manyDocuments =>
      "deserializing from YAML containing more than one document is not supported"

/-- Gives a mismatch its place, unless it has one. -/
def placed (path : Path) (mark : Mark) : DecodeFault → DecodeFault
  | mismatch cause none => mismatch cause (some (path, mark))
  | fault => fault

end DecodeFault

/-- What is still to be read, and how many aliases have been followed. -/
structure Cursor where
  rest : List (Event × Mark)
  jumps : Nat

abbrev Decode := StateT Cursor (Except DecodeFault)

namespace Decode

def mismatch (cause : Mismatch) : Decode α := throw (.mismatch cause none)

def placed (path : Path) (mark : Mark) (decode : Decode α) : Decode α := fun cursor =>
  match decode cursor with
  | .ok result => .ok result
  | .error fault => .error (fault.placed path mark)

/-- The next event, left in place. -/
def peek (stream : Stream) : Decode (Event × Mark) := do
  match (← get).rest with
  | event :: _ => return event
  | [] => throw ((stream.failure.map DecodeFault.failure).getD .endOfEvents)

def skip : Decode Unit := modify fun c => { c with rest := c.rest.tail }

def next (stream : Stream) : Decode (Event × Mark) := do
  let event ← peek stream
  skip
  return event

/-- Aliases that may be followed for each event of the document. -/
def jumpsPerEvent : Nat := 100

/-- Reads at the node that an anchor number stands for, and goes on behind the alias. -/
def follow (stream : Stream) (number : Nat) (decode : Decode α) : Decode α := do
  let c ← get
  if stream.events.length * jumpsPerEvent < c.jumps + 1 then throw .tooManyAliases
  match stream.targets.lookup number with
  | none => throw .endOfEvents
  | some index =>
      set (Cursor.mk (stream.events.drop index) (c.jumps + 1))
      let a ← decode
      modify fun after => { after with rest := c.rest }
      return a

/-- What a reader of values accepts. -/
structure Reading where
  wanted : Wanted
  /-- Whether a tag of the document's own becomes part of the value. -/
  keepsTags : Bool
  /-- Whether a mapping may not have the same key twice. -/
  uniqueKeys : Bool

/-- Values as a document keeps them. -/
def Reading.value : Reading := ⟨.anyValue, true, true⟩

/-- Values of which only the text or the list of texts counts. -/
def Reading.content : Reading := ⟨.anyContent, false, false⟩

/-- The depth that is left inside a collection. -/
def deeper (depth : Nat) (mark : Mark) : Decode Nat :=
  match depth with
  | 0 => throw (.tooDeep mark)
  | depth + 1 => pure depth

def localTag? (tag : Option String) : Option String := tag.bind Scalar.localTag?

mutual

/-- One value; `depth` is how many collections may still lie inside each other. -/
def value (stream : Stream) (reading : Reading) : Nat → Path → Nat → Decode Value
  | 0, _, _ => throw .endOfEvents
  | n + 1, path, depth => do
      let (event, mark) ← next stream
      ofEvent stream reading n path depth event mark false

/-- The value that starts with an event. Its own tag counts only if it is not `tagged` yet. -/
def ofEvent (stream : Stream) (reading : Reading) :
    Nat → Path → Nat → Event → Mark → Bool → Decode Value
  | 0, _, _, _, _, _ => throw .endOfEvents
  | n + 1, path, depth, event, mark, tagged => placed path mark do
      let tag? :=
        match event with
        | .scalar _ tag _ | .sequenceStart tag | .mappingStart tag => localTag? tag
        | _ => none
      match (if tagged then none else tag?) with
      | some tag =>
          if !reading.keepsTags then mismatch .tagInChoice
          if tag.isEmpty then mismatch .emptyTag
          let content ← ofEvent stream reading n path depth event mark true
          return .tagged (if tag = "!" then tag else (Scalar.localTag? tag).getD tag) content
      | none =>
          match event with
          | .reference number => follow stream number (value stream reading n path depth)
          | .scalar isPlain tag text =>
              match Scalar.ofParts isPlain (if tagged then none else tag) text with
              | .error cause => mismatch cause
              | .ok scalar =>
                  match scalar.value? with
                  | some value => return value
                  | none => mismatch (.wrongType scalar.found reading.wanted)
          | .sequenceStart _ =>
              return .sequence (← items stream reading n path (← deeper depth mark) 0)
          | .mappingStart _ =>
              return .mapping (← entries stream reading n path (← deeper depth mark) [])
          | .absent => return .null
          | .sequenceEnd | .mappingEnd => throw .endOfEvents

/-- Items up to the end of a sequence. -/
def items (stream : Stream) (reading : Reading) : Nat → Path → Nat → Nat → Decode (List Value)
  | 0, _, _, _ => throw .endOfEvents
  | n + 1, path, depth, index => do
      match (← peek stream).1 with
      | .sequenceEnd | .absent =>
          skip
          return []
      | _ =>
          let item ← value stream reading n (.item index :: path) depth
          return item :: (← items stream reading n path depth (index + 1))

/-- Entries up to the end of a mapping. A key that is there already is refused before its value
is read. -/
def entries (stream : Stream) (reading : Reading) :
    Nat → Path → Nat → List Value → Decode (List (Value × Value))
  | 0, _, _, _ => throw .endOfEvents
  | n + 1, path, depth, keys => do
      match (← peek stream).1 with
      | .mappingEnd | .absent =>
          skip
          return []
      | event =>
          let segment : Segment :=
            match event with
            | .scalar _ _ text => .key text
            | _ => .unnamed
          let key ← value stream reading n path depth
          if reading.uniqueKeys && keys.any key.same then mismatch (.duplicateEntry key)
          let v ← value stream reading n (segment :: path) depth
          return (key, v) :: (← entries stream reading n path depth (key :: keys))

end

/-- Steps that are enough to read any value of a document: collections lie at most `depth` deep,
and each goes over at most all events. -/
def fuel (stream : Stream) (depth : Nat) : Nat := 4 * (depth + 2) * (stream.events.length + 2)

/-- Why an event is no start of what is wanted. -/
def wrongEvent (event : Event) (wanted : Wanted) : Decode α :=
  match event with
  | .scalar isPlain tag text =>
      match Scalar.ofParts isPlain tag text with
      | .error cause => mismatch cause
      | .ok scalar => mismatch (.wrongType scalar.found wanted)
  | .sequenceStart _ => mismatch (.wrongType .sequence wanted)
  | .mappingStart _ => mismatch (.wrongType .mapping wanted)
  | _ => throw .endOfEvents

/-- The entries of a mapping, whatever its tag. Nothing at all is an empty mapping. -/
def mapping (stream : Stream) (path : Path) (depth : Nat) : Decode (List (Value × Value)) := do
  let (event, mark) ← next stream
  match event with
  | .reference number =>
      placed path mark <| follow stream number do
        let (event, mark) ← next stream
        ofStart event mark
  | _ => ofStart event mark
where
  ofStart (event : Event) (mark : Mark) : Decode (List (Value × Value)) :=
    placed path mark do
      match event with
      | .mappingStart _ =>
          let depth ← deeper depth mark
          entries stream .value (fuel stream depth) path depth []
      | .scalar true _ "" => return []
      | .absent => return []
      | _ => wrongEvent event .mapping

/-- Whether an event starts a value other than null. -/
def isPresent : Event → Except Mismatch Bool
  | .scalar false _ _ => .ok true
  | .scalar true none text => .ok !isNullText text
  | .scalar true (some tag) text =>
      if tag = Scalar.standardTag "null" then
        if Scalar.isNullWord text then .ok false
        else .error (.wrongValue (.string text) .taggedNull)
      else .ok true
  | .absent => .ok false
  | _ => .ok true

/-- A value that may be null. -/
def optional (stream : Stream) (decode : Decode α) : Decode (Option α) := do
  match ← peek stream with
  | (.reference number, _) =>
      skip
      follow stream number do
        let (event, _) ← peek stream
        ofStart event
  | (event, _) => ofStart event
where
  ofStart (event : Event) : Decode (Option α) := do
    match isPresent event with
    | .error cause => mismatch cause
    | .ok true => return some (← decode)
    | .ok false =>
        skip
        return none

/-- The rest behind one node of which `opened` collections are open; aliases are not followed. -/
def restBehind (opened : Nat) : List (Event × Mark) → Option (List (Event × Mark))
  | [] => none
  | (event, _) :: rest =>
      match event with
      | .sequenceStart _ | .mappingStart _ => restBehind (opened + 1) rest
      | .sequenceEnd | .mappingEnd =>
          if opened ≤ 1 then some rest else restBehind (opened - 1) rest
      | _ => if opened = 0 then some rest else restBehind opened rest

/-- Passes over one node. -/
def ignore (stream : Stream) : Decode Unit := do
  match restBehind 0 (← get).rest with
  | some rest => modify fun c => { c with rest }
  | none =>
      modify fun c => { c with rest := [] }
      let _ ← peek stream

/-- The text of a key, whatever the scalar means. -/
def fieldName (stream : Stream) (path : Path) : Decode String := do
  let (event, mark) ← next stream
  match event with
  | .reference number =>
      placed path mark <| follow stream number do
        let (event, mark) ← next stream
        ofStart event mark
  | _ => ofStart event mark
where
  ofStart (event : Event) (mark : Mark) : Decode String :=
    placed path mark do
      match event with
      | .scalar _ _ text => return text
      | _ => wrongEvent event .fieldName

end Decode

end ProcessLint.Yaml.Content
