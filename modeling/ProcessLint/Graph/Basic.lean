import ProcessLint.Document.Basic

/-!
The graph of dependencies as a forest. A root is opened through its dependencies and theirs. What
is on the current branch already is a leaf that closes a cycle, what no process is called a leaf
that is missing. A process is opened once: later occurrences are leaves, shared ones if there is
something below the first, so the forest is as large as the dependencies are many.
-/
namespace ProcessLint

/-- One occurrence of a process in a graph. -/
structure Occurrence where
  name : String
  /-- What the process above waits for; none for a root. -/
  condition : Option String
  status : Option String
  missing : Bool
  cycle : Bool
  /-- Its dependencies stand at an occurrence above. -/
  shared : Bool
  deriving DecidableEq, Repr

inductive GraphNode where
  | node (occurrence : Occurrence) (dependsOn : List GraphNode)
  deriving Repr

namespace GraphNode

def occurrence : GraphNode → Occurrence
  | node occurrence _ => occurrence

def dependsOn : GraphNode → List GraphNode
  | node _ dependsOn => dependsOn

def name (n : GraphNode) : String := n.occurrence.name

end GraphNode

structure Graph where
  roots : List GraphNode
  deriving Repr

namespace Graph

/-- What is known of the processes while they run. -/
abbrev Statuses := String → Option String

/-- The names of the processes that are opened already. -/
abbrev Reached := List String

/-- The occurrence of a name below a branch, and what is below it. The branch is innermost first.
`depth` bounds how many processes may still be opened one below the other. -/
def expand (doc : Document) (statuses : Statuses) :
    Nat → List String → String → Option String → StateM Reached GraphNode
  | depth, branch, name, condition =>
      let leaf : Occurrence := ⟨name, condition, statuses name, false, false, false⟩
      if branch.contains name then return .node { leaf with cycle := true } []
      else match doc.process? name with
        | none => return .node { leaf with missing := true } []
        | some p => do
            if (← get).contains name then
              return .node { leaf with shared := !p.dependsOn.isEmpty } []
            else match depth with
              | 0 => return .node leaf []
              | depth + 1 =>
                  modify (name :: ·)
                  let children ← p.dependsOn.mapM fun d =>
                    expand doc statuses depth (name :: branch) d.name (some d.condition.tag)
                  return .node leaf children

/-- A name as a root. The processes of a branch differ, so it opens no more than there are. -/
def expandRoot (doc : Document) (statuses : Statuses) (name : String) :
    StateM Reached GraphNode :=
  expand doc statuses doc.processes.length [] name none

/-- Roots in order, without the processes that are reached from the ones before. -/
def expandRoots (doc : Document) (statuses : Statuses) :
    List String → StateM Reached (List GraphNode)
  | [] => return []
  | name :: names => do
      if (← get).contains name then expandRoots doc statuses names
      else
        let root ← expandRoot doc statuses name
        return root :: (← expandRoots doc statuses names)

/-- The processes that no process depends on. -/
def independent (doc : Document) : List String :=
  let needed := doc.processes.flatMap fun p => p.dependsOn.map (·.name)
  (doc.processes.map (·.name)).filter fun name => !needed.contains name

/-- The graph of a document. Processes that are part of a cycle, or below one only, follow behind
the others. -/
def ofDocument (doc : Document) (statuses : Statuses) : Graph :=
  let names := independent doc ++ doc.processes.map (·.name)
  ⟨(expandRoots doc statuses names |>.run []).1⟩

/-- The graph of one process and what is below it. -/
def ofProcess? (doc : Document) (statuses : Statuses) (name : String) : Option Graph :=
  (doc.process? name).map fun p => ⟨[(expandRoot doc statuses p.name |>.run []).1]⟩

end Graph

mutual

/-- Who depends on whom below a node, as often as it is shown. -/
def GraphNode.pairs : GraphNode → List (String × String)
  | .node occurrence dependsOn => GraphNode.pairsBelow occurrence.name dependsOn

def GraphNode.pairsBelow (name : String) : List GraphNode → List (String × String)
  | [] => []
  | child :: rest => (name, child.name) :: child.pairs ++ GraphNode.pairsBelow name rest

end

/-- Each dependency once, from the process that has it, in the order in which they are shown. -/
def Graph.edges (graph : Graph) : List (String × String) :=
  (graph.roots.flatMap (·.pairs)).eraseDups

end ProcessLint
