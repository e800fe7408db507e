import ProcessLint.Yaml.Mismatch
import ProcessLint.Yaml.Token

/-!
What a scalar means. A plain scalar without a tag may be null, a boolean or a number; a quoted one
is text. The tags of the standard types take a scalar for that type or refuse it.
-/
namespace ProcessLint.Yaml

open Decimal

inductive Scalar where
  | null
  | bool (b : Bool)
  | integer (n : Int)
  | wideInteger (n : Int)
  | float (x : Binary64)
  | string (s : String)
  deriving DecidableEq, Repr

namespace Scalar

def boolOf? (text : String) : Option Bool :=
  if ["true", "True", "TRUE"].contains text then some true
  else if ["false", "False", "FALSE"].contains text then some false
  else none

/-- The spellings of null; an empty text is not one of them. -/
def isNullWord (text : String) : Bool := text != "" && isNullText text

def dropSign : List Char → List Char
  | '-' :: rest | '+' :: rest => rest
  | text => text

def isSigned (text : List Char) : Bool := text.head?.any fun c => c = '-' || c = '+'

/-- More than one digit with a zero in front, after an optional sign, is no number. -/
def isPaddedNumeral (text : List Char) : Bool :=
  match dropSign text with
  | '0' :: d :: rest => (d :: rest).all Text.isDigit
  | _ => false

/-- A number in digits of a base, at least one. -/
def digitsIn? (base : Nat) (digits : List Char) : Option Nat :=
  if digits.isEmpty then none else Text.numberOf? base digits

/-- Digits behind the letter of their base, at most `limit`. -/
def basedNumber? (limit : Nat) : List Char → Option Nat
  | '0' :: letter :: digits => do
      let base ←
        if letter = 'x' then some 16
        else if letter = 'o' then some 8
        else if letter = 'b' then some 2
        else none
      (digitsIn? base digits).filter (· ≤ limit)
  | _ => none

/-- A number without a sign, or with a plus. -/
def unsigned? (limit : Nat) (text : List Char) : Option Nat :=
  let body := match text with
    | '+' :: rest => rest
    | text => text
  (basedNumber? limit body).orElse fun _ =>
    if isSigned body || isPaddedNumeral text then none
    else (digitsIn? 10 body).filter (· ≤ limit)

/-- A number with a minus; the magnitude is at most `limit`. -/
def negated? (limit : Nat) : List Char → Option Nat
  | '-' :: body =>
      (basedNumber? limit body).orElse fun _ =>
        if isPaddedNumeral ('-' :: body) then none
        else (digitsIn? 10 body).filter (· ≤ limit)
  | _ => none

/-- An integer of at most 128 bits. -/
def integerOf? (text : List Char) : Option Scalar :=
  let small := (unsigned? (Nat.pow 2 64 - 1) text).map fun n => Scalar.integer n
  let smallNegative := (negated? (Nat.pow 2 63) text).map fun n => Scalar.integer (-n)
  let wide := (unsigned? (Nat.pow 2 128 - 1) text).map fun n => Scalar.wideInteger n
  let wideNegative := (negated? (Nat.pow 2 127) text).map fun n => Scalar.wideInteger (-n)
  small <|> smallNegative <|> wide <|> wideNegative

/-- A floating point number. One that is too large to be finite is none, but the words for
infinity and for no number are. -/
def floatOf? (text : List Char) : Option Binary64 :=
  let body := match text with
    | '+' :: rest => rest
    | text => text
  let isWord (words : List String) (text : List Char) := words.contains (String.ofList text)
  if text.head? = some '+' && isSigned body then none
  else if isWord [".inf", ".Inf", ".INF"] body then some (.infinite false)
  else if isWord ["-.inf", "-.Inf", "-.INF"] text then some (.infinite true)
  else if isWord [".nan", ".NaN", ".NAN"] text then some .nan
  else
    let number :=
      match body with
      | '-' :: digits => Binary64.ofText? true digits
      | digits => Binary64.ofText? false digits
    number.filter fun
      | .finite _ _ _ => true
      | _ => false

/-- The meaning of a plain scalar without a tag. -/
def ofPlain (text : String) : Scalar :=
  let chars := text.toList
  if isNullText text then .null
  else match boolOf? text with
    | some b => .bool b
    | none =>
        match integerOf? chars with
        | some n => n
        | none =>
            match (if isPaddedNumeral chars then none else floatOf? chars) with
            | some x => .float x
            | none => .string text

def standardTag (name : String) : String := "tag:yaml.org,2002:" ++ name

/-- The name of a tag that the document itself defines: what stands behind its exclamation
mark. -/
def localTag? (tag : String) : Option String :=
  match tag.toList with
  | '!' :: name => some (String.ofList name)
  | _ => none

/-- The meaning of a scalar. -/
def ofParts (isPlain : Bool) (tag : Option String) (text : String) : Except Mismatch Scalar :=
  let refuse (wanted : Wanted) := .error (.wrongValue (.string text) wanted)
  match tag with
  | none => .ok (if isPlain then ofPlain text else .string text)
  | some tag =>
      if tag = standardTag "bool" then
        match boolOf? text with
        | some b => .ok (.bool b)
        | none => refuse .taggedBoolean
      else if tag = standardTag "int" then
        match integerOf? text.toList with
        | some n => .ok n
        | none => refuse .taggedInteger
      else if tag = standardTag "float" then
        match floatOf? text.toList with
        | some x => .ok (.float x)
        | none => refuse .taggedFloat
      else if tag = standardTag "null" then
        if isNullWord text then .ok .null else refuse .taggedNull
      else if isPlain && (localTag? tag).isSome then .ok (ofPlain text)
      else .ok (.string text)

def found : Scalar → Found
  | .null => .unit
  | .bool b => .bool b
  | .integer n => .integer n
  | .wideInteger n => .wideInteger n
  | .float x => .float x
  | .string s => .string s

/-- The value of a scalar; integers of more than 64 bits have none. -/
def value? : Scalar → Option Value
  | .null => some .null
  | .bool b => some (.bool b)
  | .integer n => some (.number (.integer n))
  | .wideInteger _ => none
  | .float x => some (.number (.float x))
  | .string s => some (.string s)

end Scalar

end ProcessLint.Yaml
