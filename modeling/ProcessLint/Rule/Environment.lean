import ProcessLint.Text.Digits
import ProcessLint.Violation

/-!
Variables in the environment. A reference is a dollar sign with a name, bare or in braces; two
dollar signs are one that is escaped. Values under keys that look like secrets have to be
references, and a document with references has to say which files define the variables.
-/
namespace ProcessLint.Environment

open Text

/-- The text without escaped dollar signs. -/
def dropEscapes : List Char → List Char
  | '$' :: '$' :: rest => dropEscapes rest
  | c :: rest => c :: dropEscapes rest
  | [] => []

def isNameStart (c : Char) : Bool :=
  ('a' ≤ c && c ≤ 'z') || ('A' ≤ c && c ≤ 'Z') || c = '_'

def isNameChar (c : Char) : Bool := isNameStart c || isDigit c

/-- Whether a text that begins behind a dollar sign begins with a name, bare or in braces. -/
def startsReference : List Char → Bool
  | [] => false
  | '\x7b' :: c :: rest => isNameStart c && (rest.dropWhile isNameChar).head? = some '\x7d'
  | c :: _ => isNameStart c

def hasReference : List Char → Bool
  | [] => false
  | c :: rest => (c = '$' && startsReference rest) || hasReference rest

def usesSubstitution (value : String) : Bool := hasReference (dropEscapes value.toList)

/-- Every text of a process in which variables are expanded. -/
def expandedFields (p : Process) : List String :=
  let probe :=
    match p.readinessProbe.map ReadinessProbe.kind with
    | some (.exec exec) => [exec.command]
    | some (.http http) =>
        http.host.toList ++ (http.port.map (·.toText)).toList ++ http.path.toList
    | some .empty | none => []
  p.command :: p.environmentPairs.map (·.2) ++ probe

def processUsesSubstitution (p : Process) : Bool := (expandedFields p).any usesSubstitution

/-- What a key that looks like a secret has in it, in small letters. -/
def secretStems : List String :=
  ["token", "secret", "key", "password", "api_", "auth_", "account_id"]

/-- A letter without its case. Two letters outside of ASCII, the Kelvin sign and the long s, are
cases of ASCII letters too. -/
def foldCase (c : Char) : Char :=
  if 'A' ≤ c && c ≤ 'Z' then Char.ofNat (c.toNat + 32)
  else if c = '\u212a' then 'k'
  else if c = '\u017f' then 's'
  else c

def occursIn (stem : List Char) : List Char → Bool
  | [] => stem.isEmpty
  | c :: rest => startsWith stem (c :: rest) || occursIn stem rest

def isSecretKey (key : String) : Bool :=
  let folded := key.toList.map foldCase
  secretStems.any fun stem => occursIn stem.toList folded

def isLiteralSecret (pair : String × String) : Bool :=
  isSecretKey pair.1 && !pair.2.isEmpty && !usesSubstitution pair.2

/-- Entries of enabled processes that hold a secret in plain text. -/
def checkSubstitution (doc : Document) : List Violation :=
  doc.enabled.flatMap fun p =>
    (p.environmentPairs.zipIdx.filter fun (pair, _) => isLiteralSecret pair).map
      fun ((key, _), index) =>
        Rule.envSubstitution.violation doc
          (doc.positionOf p.name ["environment", toString index])
          (s!"process '{p.name}': {key} looks like a secret but has a literal value; use " ++
            "$\x7b" ++ key ++ "\x7d")

/-- The first process that uses a variable, if the document names no file with variables. -/
def checkEnvFile (doc : Document) : List Violation :=
  if doc.envFiles.isEmpty then
    (doc.processes.find? processUsesSubstitution).toList.map fun p =>
      Rule.envFile.violation doc (doc.positionOf p.name [])
        (s!"process '{p.name}' uses variable substitution " ++
          "but the document declares no env_file")
  else []

end ProcessLint.Environment
