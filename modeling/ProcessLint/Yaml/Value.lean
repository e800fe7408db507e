import ProcessLint.Decimal.Layout
import ProcessLint.Text.Quoted

/-!
Values that a document may hold, when two of them are the same key, and how messages show them.
-/
namespace ProcessLint.Yaml

inductive Number where
  | integer (n : Int)
  | float (x : Decimal.Binary64)
  deriving DecidableEq, Repr

namespace Number

/-- Numbers are the same if they are of one kind and equal. -/
def same : Number → Number → Bool
  | .integer a, .integer b => a == b
  | .float a, .float b => a.same b
  | _, _ => false

/-- Floating point numbers are positional from 0.00001 up to below 1e16. -/
def layout : Decimal.Layout := ⟨some (-5), some 16, ".nan", ".inf"⟩

def text : Number → String
  | .integer n => toString n
  | .float x => layout.write x

end Number

inductive Value where
  | null
  | bool (b : Bool)
  | number (n : Number)
  | string (s : String)
  | sequence (items : List Value)
  /-- Keys and values in the order of the text. -/
  | mapping (entries : List (Value × Value))
  | tagged (tag : String) (content : Value)
  deriving Repr

namespace Value

mutual

/-- Whether two values are the same key. The order of a mapping does not count. -/
def same : Value → Value → Bool
  | .null, .null => true
  | .bool a, .bool b => a == b
  | .number a, .number b => a.same b
  | .string a, .string b => a == b
  | .sequence a, .sequence b => sameItems a b
  | .mapping a, .mapping b => a.length == b.length && entriesIn a b
  | .tagged t a, .tagged u b => t == u && same a b
  | _, _ => false

def sameItems : List Value → List Value → Bool
  | [], [] => true
  | a :: as, b :: bs => same a b && sameItems as bs
  | _, _ => false

def entriesIn : List (Value × Value) → List (Value × Value) → Bool
  | [], _ => true
  | entry :: rest, entries => entryIn entry entries && entriesIn rest entries

def entryIn : Value × Value → List (Value × Value) → Bool
  | (key, value), entries => entries.any fun (k, v) => same key k && same value v

end

mutual

def debugText : Value → String
  | .null => "Null"
  | .bool b => s!"Bool({b})"
  | .number n => s!"Number({n.text})"
  | .string s => s!"String({Text.quote s})"
  | .sequence items => "Sequence [" ++ ", ".intercalate (itemTexts items) ++ "]"
  | .mapping entries => "Mapping \x7b" ++ ", ".intercalate (entryTexts entries) ++ "\x7d"
  | .tagged tag content =>
      "TaggedValue \x7b tag: !" ++ tag ++ ", value: " ++ debugText content ++ " \x7d"

def itemTexts : List Value → List String
  | [] => []
  | item :: rest => debugText item :: itemTexts rest

def entryTexts : List (Value × Value) → List String
  | [] => []
  | entry :: rest => entryText entry :: entryTexts rest

/-- Simple keys stand without the name of their kind. -/
def entryText : Value × Value → String
  | (.bool b, value) => s!"{b}: " ++ debugText value
  | (.number n, value) => s!"{n.text}: " ++ debugText value
  | (.string s, value) => s!"{Text.quote s}: " ++ debugText value
  | (key, value) => debugText key ++ ": " ++ debugText value

end

/-- A value without its tags. -/
def untag : Value → Value
  | .tagged _ content => untag content
  | value => value

end Value

end ProcessLint.Yaml
