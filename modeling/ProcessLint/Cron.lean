import ProcessLint.Text.Digits
import ProcessLint.Text.Space
import ProcessLint.Text.Split

/-!
Cron expressions of five fields. A field is a list with commas; an item is a star, a number, a
range, or a star or range with a step. Names of months or days and macros are no items. An
expression that is refused is blamed on its leftmost fault.
-/
namespace ProcessLint.Cron

open Text

inductive Field where
  | minute
  | hour
  | dayOfMonth
  | month
  | dayOfWeek
  deriving DecidableEq, Repr

namespace Field

/-- The fields in the order in which an expression has them. -/
def all : List Field := [minute, hour, dayOfMonth, month, dayOfWeek]

def name : Field → String
  | minute => "minute"
  | hour => "hour"
  | dayOfMonth => "day-of-month"
  | month => "month"
  | dayOfWeek => "day-of-week"

/-- Sunday is both 0 and 7. -/
def low : Field → Nat
  | minute | hour | dayOfWeek => 0
  | dayOfMonth | month => 1

def high : Field → Nat
  | minute => 59
  | hour => 23
  | dayOfMonth => 31
  | month => 12
  | dayOfWeek => 7

end Field

/-- The largest number that is told apart: a greater one is reported as this one, and is no step. -/
def maxNumber : Nat := 4294967295

inductive Fault where
  | fieldCount (count : Nat)
  | emptyItem (field : Field)
  | notANumber (field : Field) (token : List Char)
  | outOfRange (field : Field) (value : Nat)
  | invertedRange (field : Field) (first last : Nat)
  | zeroStep (field : Field)
  | badStep (field : Field) (token : List Char)
  | stepBase (field : Field) (token : List Char)
  deriving DecidableEq, Repr

def Fault.message : Fault → String
  | fieldCount count =>
      s!"expected 5 fields (minute hour day-of-month month day-of-week), got {count}"
  | emptyItem field => s!"{field.name}: empty list element"
  | notANumber field token => s!"{field.name}: '{String.ofList token}' is not a number"
  | outOfRange field value =>
      s!"{field.name}: {value} is out of range {field.low}-{field.high}"
  | invertedRange field first last =>
      s!"{field.name}: range start {first} is greater than end {last}"
  | zeroStep field => s!"{field.name}: step must be greater than zero"
  | badStep field token =>
      s!"{field.name}: step '{String.ofList token}' is not a positive integer"
  | stepBase field token =>
      s!"{field.name}: step base '{String.ofList token}' must be '*' or a range"

/-- A number within the bounds of its field. -/
def checkNumber (field : Field) (token : List Char) : Except Fault Nat :=
  if isNumeral token then
    let value := min (decimalValue token) maxNumber
    if field.low ≤ value ∧ value ≤ field.high then .ok value
    else .error (.outOfRange field value)
  else .error (.notANumber field token)

def checkRange (field : Field) (first last : List Char) : Except Fault Unit := do
  let first ← checkNumber field first
  let last ← checkNumber field last
  if first ≤ last then .ok () else .error (.invertedRange field first last)

def checkStep (field : Field) (token : List Char) : Except Fault Unit :=
  if isNumeral token ∧ decimalValue token ≤ maxNumber then
    if decimalValue token = 0 then .error (.zeroStep field) else .ok ()
  else .error (.badStep field token)

/-- What a step may stand behind: a star or a range. -/
def checkStepBase (field : Field) (base : List Char) : Except Fault Unit :=
  if base = ['*'] then .ok ()
  else match splitFirst '-' base with
    | some (first, last) => checkRange field first last
    | none => .error (.stepBase field base)

/-- The step is looked at before what it stands behind. -/
def checkItem (field : Field) (item : List Char) : Except Fault Unit :=
  if item = [] then .error (.emptyItem field)
  else match splitFirst '/' item with
    | some (base, step) => do
        checkStep field step
        checkStepBase field base
    | none =>
        if item = ['*'] then .ok ()
        else match splitFirst '-' item with
          | some (first, last) => checkRange field first last
          | none => do
              let _ ← checkNumber field item
              .ok ()

def checkField (field : Field) (text : List Char) : Except Fault Unit :=
  (text.splitOn ',').forM (checkItem field)

/-- Checks every field in order and gives the first fault found. -/
def check (expression : String) : Except Fault Unit :=
  let fields := words expression.toList
  if fields.length = Field.all.length then
    (Field.all.zip fields).forM fun (field, text) => checkField field text
  else .error (.fieldCount fields.length)

end ProcessLint.Cron
