import ProcessLint.Data.Json
import ProcessLint.Data.Yaml
import ProcessLint.Graph.Flowchart
import ProcessLint.Graph.Tree

/-!
The formats in which a graph is shown.
-/
namespace ProcessLint

inductive GraphFormat where
  | ascii
  | mermaid
  | json
  | yaml
  deriving DecidableEq, Repr

/-- A name that no format has. -/
structure UnknownGraphFormat where
  name : String
  deriving DecidableEq, Repr

def UnknownGraphFormat.message (e : UnknownGraphFormat) : String :=
  s!"unknown graph format '{e.name}' (expected ascii, mermaid, json or yaml)"

namespace GraphFormat

instance : Inhabited GraphFormat := ⟨ascii⟩

def all : List GraphFormat := [ascii, mermaid, json, yaml]

def name : GraphFormat → String
  | ascii => "ascii"
  | mermaid => "mermaid"
  | json => "json"
  | yaml => "yaml"

/-- The format with a name; ASCII letters may be upper or lower case. -/
def ofName (name : String) : Except UnknownGraphFormat GraphFormat :=
  match all.find? (·.name == name.map Char.toLower) with
  | some format => .ok format
  | none => .error ⟨name⟩

end GraphFormat

mutual

/-- A node as data: what is absent or not set is left out. -/
def GraphNode.data : GraphNode → Data
  | .node o dependsOn =>
      .record <|
        [("name", .text o.name)] ++
        (o.condition.map fun condition => ("condition", Data.text condition)).toList ++
        (o.status.map fun status => ("status", Data.text status)).toList ++
        (if o.missing then [("missing", .flag true)] else []) ++
        (if o.cycle then [("cycle", .flag true)] else []) ++
        (if o.shared then [("shared", .flag true)] else []) ++
        (if dependsOn.isEmpty then [] else [("depends_on", .list (GraphNode.dataList dependsOn))])

def GraphNode.dataList : List GraphNode → List Data
  | [] => []
  | child :: rest => child.data :: GraphNode.dataList rest

end

namespace Graph

def data (graph : Graph) : Data := .record [("roots", .list (GraphNode.dataList graph.roots))]

def render (graph : Graph) : GraphFormat → String
  | .ascii => graph.tree
  | .mermaid => graph.flowchart
  | .json => graph.data.json ++ "\n"
  | .yaml => graph.data.yaml

end Graph

end ProcessLint
