/-!
Texts in columns.
-/
namespace String

/-- A text with spaces behind it up to a width; a wider one as it is. -/
def padTo (s : String) (width : Nat) : String :=
  s ++ String.ofList (List.replicate (width - s.length) ' ')

end String
