import ProcessLint.Decimal.Binary64

/-!
Writing a number from its digits and the power of ten of the last one, with a point always.
-/
namespace ProcessLint.Decimal

/-- Digits and a power of ten in positional notation. -/
def positional (digits : List Char) (power : Int) : List Char :=
  let point := digits.length + power
  if 0 ≤ power then digits ++ List.replicate power.toNat '0' ++ ['.', '0']
  else if 0 < point then digits.take point.toNat ++ '.' :: digits.drop point.toNat
  else '0' :: '.' :: List.replicate (-point).toNat '0' ++ digits

/-- One digit before the point and the power of ten of that digit behind an `e`. -/
def scientific (digits : List Char) (power : Int) : List Char :=
  let exponent := digits.length + power - 1
  let exponentText := (toString exponent).toList
  match digits with
  | [d] => d :: 'e' :: exponentText
  | d :: rest => d :: '.' :: rest ++ 'e' :: exponentText
  | [] => []

/-- How numbers are written that have no place in positional notation. -/
structure Layout where
  /-- Positional notation reaches down to ten to this power and below ten to the next. -/
  positionalFrom : Option Int
  positionalBelow : Option Int
  nanText : String
  infinityText : String

def Layout.write (layout : Layout) : Binary64 → String
  | .nan => layout.nanText
  | .infinite negative => if negative then "-" ++ layout.infinityText else layout.infinityText
  | .finite negative mantissa exponent =>
      let (digits, power) := Binary64.shortest mantissa exponent
      let digits := Nat.toDigits 10 digits
      let leading := digits.length + power - 1
      let isPositional :=
        layout.positionalFrom.all (· ≤ leading) && layout.positionalBelow.all (leading < ·)
      let text :=
        if mantissa = 0 || isPositional then positional digits power
        else scientific digits power
      String.ofList (if negative then '-' :: text else text)

end ProcessLint.Decimal
