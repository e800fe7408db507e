import ProcessLint.Data.Basic
import ProcessLint.Text.Digits

/-!
Data as JSON with one item or field to a line, two spaces deeper than the brackets around it. In
a text only the quote, the backslash and the control characters are escaped.
-/
namespace ProcessLint.Data

def escapeJson (c : Char) : List Char :=
  if c = '"' then ['\\', '"']
  else if c = '\\' then ['\\', '\\']
  else if c = '\x08' then ['\\', 'b']
  else if c = '\x09' then ['\\', 't']
  else if c = '\x0a' then ['\\', 'n']
  else if c = '\x0c' then ['\\', 'f']
  else if c = '\x0d' then ['\\', 'r']
  else if c.toNat < 32 then ['\\', 'u'] ++ Text.hexPadded 4 c.toNat
  else [c]

def quoteJson (text : List Char) : List Char := '"' :: text.flatMap escapeJson ++ ['"']

def indentation (depth : Nat) : List Char := List.replicate (2 * depth) ' '

/-- Parts between brackets, each on a line of its own; without parts just the brackets. -/
def enclose (opening closing : Char) (depth : Nat) (parts : List (List Char)) : List Char :=
  if parts.isEmpty then [opening, closing]
  else
    let lines := parts.map fun part => '\n' :: indentation (depth + 1) ++ part
    opening :: List.intercalate [','] lines ++ '\n' :: indentation depth ++ [closing]

mutual

/-- The JSON of a value whose brackets stand at a depth. -/
def jsonAt (depth : Nat) : Data → List Char
  | .text s => quoteJson s.toList
  | .number n => (toString n).toList
  | .flag b => (toString b).toList
  | .list items => enclose '[' ']' depth (jsonItems (depth + 1) items)
  | .record fields => enclose '\x7b' '\x7d' depth (jsonFields (depth + 1) fields)

def jsonItems (depth : Nat) : List Data → List (List Char)
  | [] => []
  | item :: rest => jsonAt depth item :: jsonItems depth rest

def jsonFields (depth : Nat) : List (String × Data) → List (List Char)
  | [] => []
  | field :: rest => jsonField depth field :: jsonFields depth rest

def jsonField (depth : Nat) : String × Data → List Char
  | (key, value) => quoteJson key.toList ++ ": ".toList ++ jsonAt depth value

end

/-- A value as JSON. There is no line feed at the end. -/
def json (data : Data) : String := String.ofList (jsonAt 0 data)

end ProcessLint.Data
