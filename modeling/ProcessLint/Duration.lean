import ProcessLint.Text.Alphabetic
import ProcessLint.Text.Digits
import ProcessLint.Text.Space

/-!
Durations such as 1h30m45s or 1.5s: one or more pairs of a number and a unit with nothing in
between, and at most one sign in front. Units go from nanoseconds up to hours. A unit is the
longest run of letters behind a number, so 1mx has the unknown unit mx.
-/
namespace ProcessLint.Duration

open Text

def units : List String := ["ns", "us", "µs", "μs", "ms", "s", "m", "h"]

inductive Fault where
  | empty
  | whitespace
  | missingUnit (number : List Char)
  | missingNumber (unit : List Char)
  | unsupportedUnit (unit : List Char)
  | unexpectedCharacter (c : Char)
  deriving DecidableEq, Repr

def unitList : String := ", ".intercalate units

def Fault.message : Fault → String
  | empty => "duration is empty"
  | whitespace => "duration must not contain whitespace"
  | missingUnit number => s!"'{String.ofList number}' is missing a unit (one of {unitList})"
  | missingNumber unit => s!"unit '{String.ofList unit}' is missing a number"
  | unsupportedUnit unit =>
      s!"unsupported unit '{String.ofList unit}' (expected one of {unitList})"
  | unexpectedCharacter c => s!"unexpected character '{c}'"

/-- The longest number at the front and the rest. A point belongs to it only with a digit on
both sides. -/
def spanNumber (text : List Char) : List Char × List Char :=
  match text.takeWhile isDigit, text.dropWhile isDigit with
  | d :: whole, '.' :: behind =>
      match behind.takeWhile isDigit with
      | [] => (d :: whole, '.' :: behind)
      | fraction => (d :: whole ++ '.' :: fraction, behind.dropWhile isDigit)
  | whole, rest => (whole, rest)

theorem spanNumber_append (text : List Char) :
    (spanNumber text).1 ++ (spanNumber text).2 = text := by
  have h := List.takeWhile_append_dropWhile (p := isDigit) (l := text)
  unfold spanNumber
  split
  · rename_i whole behind hw hr
    rw [hw, hr] at h
    split
    · exact h
    · simpa only [List.append_assoc, List.cons_append, List.takeWhile_append_dropWhile] using h
  · exact h

theorem spanNumber_length_lt {text : List Char} (h : (spanNumber text).1 ≠ []) :
    (spanNumber text).2.length < text.length := by
  have happ := congrArg List.length (spanNumber_append text)
  have hpos := List.length_pos_iff.2 h
  rw [List.length_append] at happ
  omega

/-- What is wrong with a text that does not go on as it should; it is not empty. -/
def unexpected : List Char → Fault
  | c :: _ => .unexpectedCharacter c
  | [] => .unexpectedCharacter '?'

/-- The rest behind the pair at the front of a text that is not empty. -/
def takePair (text : List Char) : Except Fault (List Char) :=
  match spanNumber text with
  | ([], _) =>
      match text.takeWhile isAlphabetic with
      | [] => .error (unexpected text)
      | unit => .error (.missingNumber unit)
  | (number, []) => .error (.missingUnit number)
  | (_, behind) =>
      match behind.takeWhile isAlphabetic with
      | [] => .error (unexpected behind)
      | unit =>
          if String.ofList unit ∈ units then .ok (behind.dropWhile isAlphabetic)
          else .error (.unsupportedUnit unit)

theorem takePair_length_lt {text rest : List Char} (h : takePair text = .ok rest) :
    rest.length < text.length := by
  have hnumber := @spanNumber_length_lt text
  unfold takePair at h
  generalize spanNumber text = span at h hnumber
  obtain ⟨number, behind⟩ := span
  cases number with
  | nil =>
    dsimp only at h
    split at h <;> cases h
  | cons d number =>
    have hbehind : behind.length < text.length := hnumber (List.cons_ne_nil d number)
    cases behind with
    | nil => cases h
    | cons c behind =>
      dsimp only at h
      split at h
      · cases h
      · split at h
        · cases h
          exact Nat.lt_of_le_of_lt (List.dropWhile_suffix isAlphabetic).length_le hbehind
        · cases h

/-- Pairs up to the end of the text. -/
def checkPairs (text : List Char) : Except Fault Unit :=
  if text = [] then .ok ()
  else match _h : takePair text with
    | .error fault => .error fault
    | .ok rest => checkPairs rest
termination_by text.length
decreasing_by exact takePair_length_lt _h

def dropSign : List Char → List Char
  | '-' :: rest => rest
  | '+' :: rest => rest
  | text => text

def check (text : String) : Except Fault Unit :=
  let chars := text.toList
  if chars = [] then .error .empty
  else if chars.any isSpace then .error .whitespace
  else match dropSign chars with
    | [] => .error .empty
    | body => checkPairs body

end ProcessLint.Duration
