/-!
Sets of characters given by a sorted list of inclusive code point ranges. The search stops at
the first range that starts behind the character, so an early character is decided early.
-/
namespace ProcessLint.Text

/-- Inclusive bounds, in ascending order and without overlap. -/
abbrev CodeRanges := List (Nat × Nat)

def CodeRanges.containsCode : CodeRanges → Nat → Bool
  | [], _ => false
  | (low, high) :: rest, code =>
      if code < low then false
      else if code ≤ high then true
      else containsCode rest code

def CodeRanges.contains (ranges : CodeRanges) (c : Char) : Bool :=
  ranges.containsCode c.toNat

end ProcessLint.Text
