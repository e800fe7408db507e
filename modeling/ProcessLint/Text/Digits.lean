/-!
Digits and the numbers they write. Only the ASCII digits count.
-/
namespace ProcessLint.Text

def isDigit (c : Char) : Bool := '0' ≤ c && c ≤ '9'

/-- The value of a digit of a base up to sixteen, upper or lower case. -/
def digitValue? (base : Nat) (c : Char) : Option Nat :=
  let value :=
    if isDigit c then some (c.toNat - 48)
    else if 'a' ≤ c && c ≤ 'f' then some (c.toNat - 87)
    else if 'A' ≤ c && c ≤ 'F' then some (c.toNat - 55)
    else none
  value.filter (· < base)

def isHexDigit (c : Char) : Bool := (digitValue? 16 c).isSome

/-- The number that a text of digits writes; `none` if a character is no digit. The empty text
writes zero. -/
def numberOf? (base : Nat) (digits : List Char) : Option Nat :=
  digits.foldl (fun acc c => do return (← acc) * base + (← digitValue? base c)) (some 0)

/-- The number that a text of decimal digits writes. -/
def decimalValue (digits : List Char) : Nat :=
  digits.foldl (fun acc c => acc * 10 + (c.toNat - 48)) 0

/-- A non-empty text of decimal digits only. -/
def isNumeral (text : List Char) : Bool := !text.isEmpty && text.all isDigit

/-- Digits of a number in base sixteen, lower case. -/
def hexDigits (n : Nat) : List Char := Nat.toDigits 16 n

/-- The same with zeros in front up to `width` digits. -/
def hexPadded (width n : Nat) : List Char :=
  let digits := hexDigits n
  List.replicate (width - digits.length) '0' ++ digits

end ProcessLint.Text
