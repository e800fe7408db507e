import ProcessLint.Fix.Basic

/-!
Declaring a version: an empty value is replaced on its line, and where there is no key a line is
inserted before the first line with content. Nothing else changes.
-/
namespace ProcessLint.Fix.Version

open Text

def defaultVersion : List Char := "\"0.5\"".toList

/-- What may stand for an empty value. -/
def emptyValues : List (List Char) :=
  ["", "\"\"", "''", "~", "null", "Null", "NULL"].map String.toList

/-- Cuts what follows the colon before its comment: at a space and a number sign, or before all of
it if that is nothing but a comment. -/
def splitComment (rest : List Char) : List Char × List Char :=
  match cut rest with
  | some parts => parts
  | none => if (trimStart rest).head? = some '#' then ([], rest) else (rest, [])
where
  cut : List Char → Option (List Char × List Char)
    | [] => none
    | c :: rest =>
        if startsWith [' ', '#'] (c :: rest) then some ([], c :: rest)
        else (cut rest).map fun (value, comment) => (c :: value, comment)

/-- The line with the default version in place of an empty value. -/
def replaceValue (line ending : List Char) : Except Reason (List Char) :=
  match splitFirst ':' (dropFinal '\r' line) with
  | none => .error .versionWithoutColon
  | some (key, rest) =>
      let (value, comment) := splitComment rest
      if trim value ∈ emptyValues then
        let comment := match trimStart comment with
          | [] => []
          | comment => ' ' :: comment
        .ok (key ++ ": ".toList ++ defaultVersion ++ comment ++ ending)
      else .error (.versionValue (trim value))

/-- Whether a line may stand before the version: blank, a comment, a directive or a document
start. -/
def isPreamble (line : List Char) : Bool :=
  let text := trim line
  text.isEmpty || text.head? = some '#' || text.head? = some '%' || text = "---".toList

/-- The number of lines before the version, and its indentation, which is that of the first line
with content. Without content the version goes to the end, but before a last line that is
blank. -/
def insertionPoint (lines : Lines) : Except Reason (Nat × List Char) :=
  let before := lines.takeWhile isPreamble
  match lines.drop before.length with
  | line :: _ =>
      let text := trim line
      if startsWith "---".toList text || text.head? = some '\x7b' then .error .rootNotBlock
      else .ok (before.length, line.takeWhile isSpace)
  | [] =>
      match lines.getLast? with
      | some last => if isBlank last then .ok (lines.length - 1, []) else .ok (lines.length, [])
      | none => .ok (0, [])

def apply (doc : Document) : Except Reason String :=
  if doc.version ≠ "" then .ok doc.text
  else
    let lines := doc.lineChars
    let ending := if lines.isReturned then ['\r'] else []
    let position := doc.positionOfKey "version"
    if 0 < position.line then
      match lines[position.line - 1]? with
      | none => .error .versionOutside
      | some line => do
          let line ← replaceValue line ending
          return join ['\n'] (lines.set (position.line - 1) line)
    else do
      let (index, indent) ← insertionPoint lines
      let line := indent ++ "version: ".toList ++ defaultVersion ++ ending
      return join ['\n'] (lines.insertIdx index line)

end ProcessLint.Fix.Version
