import ProcessLint.Text.Digits

/-!
Floating point numbers of 64 bits in exact arithmetic: reading a decimal to the nearest of them,
and the fewest decimal digits that read back as the same number. No rounding is hidden here; a
number is a mantissa times a power of two.
-/
namespace ProcessLint.Decimal

inductive Binary64 where
  | nan
  | infinite (negative : Bool)
  /-- The mantissa times two to the exponent. -/
  | finite (negative : Bool) (mantissa : Nat) (exponent : Int)
  deriving DecidableEq, Repr

namespace Binary64

def minExponent : Int := -1074
def maxExponent : Int := 971

/-- Two to the 53: mantissas of full length lie below it and not below its half. -/
def mantissaBound : Nat := 0x20000000000000

def zero (negative : Bool) : Binary64 := .finite negative 0 minExponent

/-- Numerical equality, but a number that is none equals itself. -/
def same : Binary64 → Binary64 → Bool
  | .nan, .nan => true
  | .infinite a, .infinite b => a == b
  | .finite a m p, .finite b n q => m == n && (m == 0 || (a == b && p == q))
  | _, _ => false

/-- The quotient rounded to nearest, a half to the even neighbour. -/
def roundDiv (num den : Nat) : Nat :=
  let quotient := num / den
  let double := 2 * (num % den)
  if double < den then quotient
  else if den < double then quotient + 1
  else quotient + quotient % 2

/-- A power with an integer exponent, as numerator and denominator. -/
def powRatio (base : Nat) (exponent : Int) : Nat × Nat :=
  (base.pow exponent.toNat, base.pow (-exponent).toNat)

/-- The number nearest to a positive fraction. -/
def ofRatio (negative : Bool) (num den : Nat) : Binary64 :=
  let scale (exponent : Int) : Nat × Nat :=
    let (up, down) := powRatio 2 exponent
    (num * down, den * up)
  let low := max ((num.log2 : Int) - den.log2 - 53) minExponent
  let (n, d) := scale low
  let exponent := if mantissaBound ≤ n / d then low + 1 else low
  let (n, d) := scale exponent
  let mantissa := roundDiv n d
  let (mantissa, exponent) :=
    if mantissa = mantissaBound then (mantissaBound / 2, exponent + 1) else (mantissa, exponent)
  if maxExponent < exponent then .infinite negative else .finite negative mantissa exponent

/-- The number nearest to `digits` times ten to the exponent. Far outside of the range nothing
is computed. -/
def ofDecimal (negative : Bool) (digits : Nat) (exponent : Int) : Binary64 :=
  let magnitude := (Nat.toDigits 10 digits).length + exponent
  if digits = 0 ∨ magnitude < -400 then zero negative
  else if 400 < magnitude then .infinite negative
  else
    let (up, down) := powRatio 10 exponent
    ofRatio negative (digits * up) down

/-- Reads digits with an optional point and an optional exponent; at least one digit must stand
before the exponent. -/
def ofText? (negative : Bool) (text : List Char) : Option Binary64 :=
  let whole := text.takeWhile Text.isDigit
  let rest := text.dropWhile Text.isDigit
  let (fraction, rest) :=
    match rest with
    | '.' :: rest => (rest.takeWhile Text.isDigit, rest.dropWhile Text.isDigit)
    | rest => ([], rest)
  let exponent? : Option Int :=
    match rest with
    | [] => some 0
    | e :: rest =>
        if e = 'e' ∨ e = 'E' then
          match rest with
          | '-' :: power => if Text.isNumeral power then some (-Text.decimalValue power) else none
          | '+' :: power => if Text.isNumeral power then some (Text.decimalValue power) else none
          | power => if Text.isNumeral power then some (Text.decimalValue power) else none
        else none
  match whole ++ fraction, exponent? with
  | [], _ => none
  | _, none => none
  | digits, some exponent =>
      some (ofDecimal negative (Text.decimalValue digits) (exponent - fraction.length))

/-- The decimal on the grid of ten to `power` that reads back as the number, if there is one; of
two the nearer, of two equally near the even one. The arguments are the number and the ends of
the interval that rounds to it, as multiples of two to `exponent`. -/
def onGrid? (low value high : Nat) (closed : Bool) (exponent power : Int) : Option Nat :=
  let (twoUp, twoDown) := powRatio 2 exponent
  let (tenUp, tenDown) := powRatio 10 power
  let numUnit := twoUp * tenDown
  let denUnit := tenUp * twoDown
  let isInside (d : Nat) : Bool :=
    if closed then low * numUnit ≤ d * denUnit && d * denUnit ≤ high * numUnit
    else low * numUnit < d * denUnit && d * denUnit < high * numUnit
  let below := value * numUnit / denUnit
  let nearest := roundDiv (value * numUnit) denUnit
  let other := if nearest = below then below + 1 else below
  if isInside nearest then some nearest
  else if isInside other then some other
  else none

/-- The first grid, from coarse to fine, that holds a decimal which reads back. -/
def firstGrid (low value high : Nat) (closed : Bool) (exponent : Int) :
    Nat → Int → Nat × Int
  | 0, power => (0, power)
  | n + 1, power =>
      match onGrid? low value high closed exponent power with
      | some digits => (digits, power)
      | none => firstGrid low value high closed exponent n (power - 1)

/-- The fewest digits that read back as a positive number, and the power of ten of the last. -/
def shortest (mantissa : Nat) (exponent : Int) : Nat × Int :=
  if mantissa = 0 then (0, 0)
  else
    let value := 4 * mantissa
    let low :=
      if mantissa = mantissaBound / 2 ∧ minExponent < exponent then value - 1 else value - 2
    let high := value + 2
    let (up, down) := powRatio 2 (exponent - 2)
    let whole := value * up / down
    let start : Int :=
      if 0 < whole then (Nat.toDigits 10 whole).length
      else 2 - ((Nat.toDigits 10 (down / (value * up))).length : Int)
    firstGrid low value high (mantissa % 2 = 0) (exponent - 2) 24 start

end Binary64

end ProcessLint.Decimal
