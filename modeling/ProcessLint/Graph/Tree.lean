import ProcessLint.Graph.Basic

/-!
A graph drawn as an indented tree, one line to an occurrence.
-/
namespace ProcessLint

def Occurrence.label (o : Occurrence) : String :=
  o.name ++ around " (" ")" o.condition ++ around " [" "]" o.status ++
    mark " (missing)" o.missing ++ mark " (cycle)" o.cycle ++ mark " (see above)" o.shared
where
  around (opening closing : String) : Option String → String
    | none => ""
    | some s => opening ++ s ++ closing
  mark (text : String) (isSet : Bool) : String := if isSet then text else ""

namespace GraphNode

mutual

/-- The lines below a node, each behind `margin` and its own branch. -/
def linesBelow (margin : String) : GraphNode → List String
  | node _ dependsOn => branchLines margin dependsOn

/-- A branch goes on in the lines below it, unless it is the last. -/
def branchLines (margin : String) : List GraphNode → List String
  | [] => []
  | child :: rest =>
      let (branch, gap) := if rest.isEmpty then ("└── ", "    ") else ("├── ", "│   ")
      (margin ++ branch ++ child.occurrence.label) :: child.linesBelow (margin ++ gap) ++
        branchLines margin rest

end

def lines (root : GraphNode) : List String := root.occurrence.label :: root.linesBelow ""

end GraphNode

def Graph.tree (graph : Graph) : String :=
  String.join ((graph.roots.flatMap (·.lines)).map (· ++ "\n"))

end ProcessLint
