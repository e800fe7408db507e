/-!
Cutting a text in two at a separator, and taking a stem off its front. Cutting at every
separator is `List.splitOn`.
-/
namespace ProcessLint.Text

/-- What stands before and behind the first `sep`, if there is one. -/
def splitFirst (sep : Char) : List Char → Option (List Char × List Char)
  | [] => none
  | c :: rest =>
      if c = sep then some ([], rest)
      else (splitFirst sep rest).map fun (before, behind) => (c :: before, behind)

/-- What stands before and behind the last `sep`, if there is one. -/
def splitLast (sep : Char) : List Char → Option (List Char × List Char)
  | [] => none
  | c :: rest =>
      match splitLast sep rest with
      | some (before, behind) => some (c :: before, behind)
      | none => if c = sep then some ([], rest) else none

/-- The rest of a text behind `stem`, if the text starts with it. -/
def stripStart? : List Char → List Char → Option (List Char)
  | [], text => some text
  | _ :: _, [] => none
  | a :: stem, b :: text => if a = b then stripStart? stem text else none

def startsWith (stem text : List Char) : Bool := (stripStart? stem text).isSome

/-- A text without one final `c`. -/
def dropFinal (c : Char) (text : List Char) : List Char :=
  if text.getLast? = some c then text.dropLast else text

end ProcessLint.Text
