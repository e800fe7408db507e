import ProcessLint.Yaml.Value

/-!
Why a value is not what a document needs at its place.
-/
namespace ProcessLint.Yaml

/-- What was found. -/
inductive Found where
  | bool (b : Bool)
  | integer (n : Int)
  /-- An integer of more than 64 bits. -/
  | wideInteger (n : Int)
  | float (x : Decimal.Binary64)
  | string (s : String)
  | unit
  | sequence
  | mapping
  deriving DecidableEq, Repr

namespace Found

/-- Floating point numbers are positional, whatever their size. -/
def layout : Decimal.Layout := ⟨none, none, "NaN", "inf"⟩

def text : Found → String
  | .bool b => s!"boolean `{b}`"
  | .integer n => s!"integer `{n}`"
  | .wideInteger n => s!"integer `{n}` as " ++ (if n < 0 then "i128" else "u128")
  | .float x => s!"floating point `{layout.write x}`"
  | .string s => s!"string {Text.quote s}"
  | .unit => "unit value"
  | .sequence => "sequence"
  | .mapping => "map"

def ofValue : Value → Found
  | .null => .unit
  | .bool b => .bool b
  | .number (.integer n) => .integer n
  | .number (.float x) => .float x
  | .string s => .string s
  | .sequence _ => .sequence
  | .mapping _ => .mapping
  | .tagged _ content => ofValue content

end Found

/-- What was wanted. -/
inductive Wanted where
  | text
  | boolean
  | unsigned
  | signed
  | sequence
  | mapping
  | record (name : String)
  | fieldName
  | anyValue
  | anyContent
  | taggedBoolean
  | taggedInteger
  | taggedFloat
  | taggedNull
  deriving DecidableEq, Repr

def Wanted.message : Wanted → String
  | .text => "a string"
  | .boolean | .taggedBoolean => "a boolean"
  | .unsigned => "u64"
  | .signed => "i64"
  | .sequence => "a sequence"
  | .mapping => "a YAML mapping"
  | .record name => "struct " ++ name
  | .fieldName => "field identifier"
  | .anyValue => "any YAML value"
  | .anyContent => "any value"
  | .taggedInteger => "an integer"
  | .taggedFloat => "a float"
  | .taggedNull => "null"

inductive Mismatch where
  | wrongType (found : Found) (wanted : Wanted)
  | wrongValue (found : Found) (wanted : Wanted)
  | duplicateField (name : String)
  | duplicateEntry (key : Value)
  /-- The value is none of the alternatives of a choice. -/
  | noAlternative (choice : String)
  | tagInChoice
  | emptyTag
  | dependencyName (key : Value)
  | processName
  | version (value : Value)
  deriving Repr

namespace Mismatch

def keyText : Value → String
  | .null => "with null key"
  | .bool b => s!"with key `{b}`"
  | .number n => s!"with key {n.text}"
  | .string s => s!"with key {Text.quote s}"
  | _ => "in YAML map"

def message : Mismatch → String
  | wrongType found wanted => s!"invalid type: {found.text}, expected {wanted.message}"
  | wrongValue found wanted => s!"invalid value: {found.text}, expected {wanted.message}"
  | duplicateField name => s!"duplicate field `{name}`"
  | duplicateEntry key => "duplicate entry " ++ keyText key
  | noAlternative choice => "data did not match any variant of untagged enum " ++ choice
  | tagInChoice => "untagged and internally tagged enums do not support enum input"
  | emptyTag => "empty YAML tag is not allowed"
  | dependencyName key => s!"depends_on key {key.debugText} is not a string"
  | processName => "process name must be a non-empty string"
  | version value => s!"version must be a scalar, got {value.debugText}"

end Mismatch

end ProcessLint.Yaml
