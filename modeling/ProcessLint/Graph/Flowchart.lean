import ProcessLint.Graph.Basic

/-!
A graph as a Mermaid flowchart: a line to each dependency, then one to each root that has none.
Names that are no identifiers get one, and are shown as labels.
-/
namespace ProcessLint.Flowchart

/-- Names with the identifiers assigned to them. -/
abbrev Identifiers := List (String × String)

def isIdentifierChar (c : Char) : Bool := c.isAlphanum || c = '_'

/-- The name with underscores for what an identifier does not hold. -/
def sanitize (name : String) : String :=
  if name.isEmpty then "_" else name.map fun c => if isIdentifierChar c then c else '_'

/-- What is tried for a name: its sanitized form, then the same with 2, 3 and so on. -/
def candidate (base : String) : Nat → String
  | 0 => base
  | n + 1 => base ++ "_" ++ toString (n + 2)

/-- The first candidate that is not taken. Of one more than are taken, one is not. -/
def fresh (taken : List String) (base : String) : String :=
  let candidates := (List.range (taken.length + 1)).map (candidate base)
  (candidates.find? fun id => !taken.contains id).getD base

/-- The identifier of a name, assigned when it is first asked for. -/
def identifier (name : String) : StateM Identifiers String := do
  let assigned ← get
  match assigned.lookup name with
  | some id => return id
  | none =>
      let id := fresh (assigned.map (·.2)) (sanitize name)
      set ((name, id) :: assigned)
      return id

/-- A quote ends the label, so it is written as its entity. -/
def quoteLabel (name : String) : String :=
  let label := name.toList.flatMap fun c => if c = '"' then "#quot;".toList else [c]
  "[\"" ++ String.ofList label ++ "\"]"

/-- How a name stands in a line: its identifier, with a label unless that is the name. -/
def reference (name : String) : StateM Identifiers String := do
  let id ← identifier name
  return if id = name then id else id ++ quoteLabel name

def edgeLine (edge : String × String) : StateM Identifiers String := do
  let dependent ← reference edge.1
  let dependency ← reference edge.2
  return "    " ++ dependent ++ " --> " ++ dependency

def rootLine (name : String) : StateM Identifiers String :=
  return "    " ++ (← reference name)

/-- Roots that stand in no edge. -/
def isolated (graph : Graph) : List String :=
  let connected := graph.edges.flatMap fun (dependent, dependency) => [dependent, dependency]
  (graph.roots.map (·.name)).filter fun name => !connected.contains name

def lines (graph : Graph) : StateM Identifiers (List String) := do
  let edges ← graph.edges.mapM edgeLine
  let roots ← (isolated graph).mapM rootLine
  return edges ++ roots

end Flowchart

def Graph.flowchart (graph : Graph) : String :=
  let lines := (Flowchart.lines graph |>.run []).1
  String.join (("flowchart TD" :: lines).map (· ++ "\n"))

end ProcessLint
