import ProcessLint.Data.Basic
import ProcessLint.Yaml.Style

/-!
Data as YAML in block style. A list stands below its key without further indentation, a record two
spaces deeper; the first field of a record in a list stands behind the dash.
-/
namespace ProcessLint.Data

open Yaml

/-- Ends a line, unless its text ends with a break of its own. -/
def endLine (text : List Char) : List Char :=
  if text.getLast?.any Style.isBreak then text else text ++ ['\n']

def spaces (indent : Nat) : List Char := List.replicate indent ' '

mutual

/-- A value behind a key whose record is indented. -/
def yamlValue (indent : Nat) : Data → List Char
  | .text s => endLine (' ' :: writeScalar (indent + 2) s.toList)
  | .number n => endLine (' ' :: (toString n).toList)
  | .flag b => endLine (' ' :: (toString b).toList)
  | .list [] => " []\n".toList
  | .list items => '\n' :: yamlItems indent true items
  | .record [] => " \x7b\x7d\n".toList
  | .record fields => '\n' :: yamlFields (indent + 2) true fields

/-- A value behind a dash at an indentation. -/
def yamlItem (indent : Nat) : Data → List Char
  | .text s => endLine (writeScalar (indent + 2) s.toList)
  | .number n => endLine (toString n).toList
  | .flag b => endLine (toString b).toList
  | .list [] => "[]\n".toList
  | .list items => yamlItems (indent + 2) false items
  | .record [] => "\x7b\x7d\n".toList
  | .record fields => yamlFields (indent + 2) false fields

/-- Items, the first of them on a new line or on the line that is open. -/
def yamlItems (indent : Nat) (newLine : Bool) : List Data → List Char
  | [] => []
  | item :: rest =>
      (if newLine then spaces indent else []) ++ "- ".toList ++ yamlItem indent item ++
        yamlItems indent true rest

/-- Fields, the first of them on a new line or on the line that is open. -/
def yamlFields (indent : Nat) (newLine : Bool) : List (String × Data) → List Char
  | [] => []
  | field :: rest =>
      (if newLine then spaces indent else []) ++ yamlField indent field ++
        yamlFields indent true rest

def yamlField (indent : Nat) : String × Data → List Char
  | (key, value) => writeScalar indent key.toList ++ ':' :: yamlValue indent value

end

/-- A value as a document. -/
def yaml (data : Data) : String :=
  String.ofList <| match data with
    | .record (field :: fields) => yamlFields 0 true (field :: fields)
    | .list (item :: items) => yamlItems 0 true (item :: items)
    | .text s => endLine (writeScalar 2 s.toList)
    | other => (yamlItem 0 other)

end ProcessLint.Data
