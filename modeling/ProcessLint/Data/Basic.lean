/-!
What is written out in a format for machines: texts, numbers and flags in lists and records.
-/
namespace ProcessLint

inductive Data where
  | text (s : String)
  | number (n : Nat)
  | flag (b : Bool)
  | list (items : List Data)
  /-- Fields in the order in which they are written. -/
  | record (fields : List (String × Data))
  deriving Repr

end ProcessLint
