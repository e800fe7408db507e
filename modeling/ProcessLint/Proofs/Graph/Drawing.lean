import Mathlib.Data.List.Forall2
import ProcessLint.Graph.Tree

/-!
What a drawn graph looks like, line by line. A node is told by its address: its position among the
roots or among the children of another node, behind the address of that one. The lines are written
with a margin that is handed down from node to node. Here what stands before a label is read off
the ancestors of its node instead, each by whether it is the last child of the one above it.
-/
namespace ProcessLint

namespace GraphNode

/-- What is below the node at an address. Below the empty address, which is that of no node, are
the nodes from which addresses are counted. -/
def childrenAt (nodes : List GraphNode) : List Nat → List GraphNode
  | [] => nodes
  | i :: address =>
      match nodes[i]? with
      | some n => childrenAt n.dependsOn address
      | none => []

/-- The node at an address. -/
def at? (nodes : List GraphNode) (address : List Nat) : Option GraphNode :=
  address.getLast?.bind fun i => (childrenAt nodes address.dropLast)[i]?

/-- No node stands beside the one at an address and behind it. -/
def isLast (nodes : List GraphNode) (address : List Nat) : Bool :=
  address.getLast?.any fun i => i + 1 == (childrenAt nodes address.dropLast).length

mutual

/-- The addresses of a node and of all that is below it, counted from the node itself. -/
def addresses : GraphNode → List (List Nat)
  | .node _ dependsOn => [] :: addressesFrom 0 dependsOn

/-- The addresses of nodes that stand side by side and of all that is below them. -/
def addressesFrom (first : Nat) : List GraphNode → List (List Nat)
  | [] => []
  | child :: rest => child.addresses.map (first :: ·) ++ addressesFrom (first + 1) rest

end

section Addresses

variable {nodes : List GraphNode} {node found : GraphNode} {address : List Nat} {i first : Nat}

@[simp] theorem at?_nil : at? nodes [] = none := rfl

@[simp] theorem at?_singleton : at? nodes [i] = nodes[i]? := rfl

@[simp] theorem isLast_singleton : isLast nodes [i] = (i + 1 == nodes.length) := rfl

theorem childrenAt_cons (h : nodes[i]? = some node) :
    childrenAt nodes (i :: address) = childrenAt node.dependsOn address := by
  rw [childrenAt, h]

theorem at?_cons (h : nodes[i]? = some node) (hne : address ≠ []) :
    at? nodes (i :: address) = at? node.dependsOn address := by
  unfold at?
  rw [List.getLast?_cons_of_ne_nil hne, List.dropLast_cons_of_ne_nil hne, childrenAt_cons h]

theorem isLast_cons (h : nodes[i]? = some node) (hne : address ≠ []) :
    isLast nodes (i :: address) = isLast node.dependsOn address := by
  unfold isLast
  rw [List.getLast?_cons_of_ne_nil hne, List.dropLast_cons_of_ne_nil hne, childrenAt_cons h]

theorem at?_cons_eq_some : at? nodes (i :: address) = some found ↔ ∃ node, nodes[i]? = some node ∧
    (address = [] ∧ node = found ∨ at? node.dependsOn address = some found) := by
  by_cases hne : address = []
  · subst hne
    simp
  · cases hnode : nodes[i]? with
    | none => simp [at?, List.dropLast_cons_of_ne_nil hne, childrenAt, hnode]
    | some node => simp [at?_cons hnode hne, hne]

theorem addresses_eq (node : GraphNode) :
    node.addresses = [] :: addressesFrom 0 node.dependsOn := by
  cases node
  rfl

theorem mem_addresses : address ∈ node.addresses ↔
    address = [] ∨ address ∈ addressesFrom 0 node.dependsOn := by
  rw [addresses_eq, List.mem_cons]

theorem mem_addressesFrom : address ∈ addressesFrom first nodes ↔
    ∃ i node rest, address = (first + i) :: rest ∧ nodes[i]? = some node ∧
      rest ∈ node.addresses := by
  induction nodes generalizing first with
  | nil => simp [addressesFrom]
  | cons child nodes ih =>
    have hnext (i : Nat) : first + 1 + i = first + (i + 1) := by omega
    rw [addressesFrom, List.mem_append, List.mem_map, ih]
    constructor
    · rintro (⟨rest, hrest, rfl⟩ | ⟨i, node, rest, rfl, hnode, hrest⟩)
      · exact ⟨0, child, rest, rfl, rfl, hrest⟩
      · exact ⟨i + 1, node, rest, by rw [hnext], hnode, hrest⟩
    · rintro ⟨_ | i, node, rest, rfl, hnode, hrest⟩
      · cases hnode
        exact .inl ⟨rest, hrest, rfl⟩
      · exact .inr ⟨i, node, rest, by rw [hnext], hnode, hrest⟩

/-- The addresses that are listed are those of the nodes. -/
theorem mem_addressesFrom_zero :
    address ∈ addressesFrom 0 nodes ↔ ∃ node, at? nodes address = some node := by
  induction address generalizing nodes with
  | nil => simp [mem_addressesFrom]
  | cons i address ih =>
    simp only [mem_addressesFrom, at?_cons_eq_some, Nat.zero_add]
    constructor
    · rintro ⟨i, node, rest, haddress, hnode, hrest⟩
      cases haddress
      rcases mem_addresses.mp hrest with hnil | hbelow
      · exact ⟨node, node, hnode, .inl ⟨hnil, rfl⟩⟩
      · obtain ⟨found, hfound⟩ := ih.mp hbelow
        exact ⟨found, node, hnode, .inr hfound⟩
    · rintro ⟨found, node, hnode, ⟨hnil, -⟩ | hfound⟩
      · exact ⟨i, node, address, rfl, hnode, mem_addresses.mpr (.inl hnil)⟩
      · exact ⟨i, node, address, rfl, hnode, mem_addresses.mpr (.inr (ih.mpr ⟨found, hfound⟩))⟩

mutual

theorem pairwise_addresses : ∀ node : GraphNode, node.addresses.Pairwise (List.Lex (· < ·))
  | .node _ dependsOn => by
    rw [addresses, List.pairwise_cons]
    refine ⟨fun address haddress => ?_, pairwise_addressesFrom 0 dependsOn⟩
    obtain ⟨i, -, rest, rfl, -⟩ := mem_addressesFrom.mp haddress
    exact .nil

/-- A node comes before what is below it, and that comes before the nodes beside it. -/
theorem pairwise_addressesFrom (first : Nat) :
    ∀ nodes : List GraphNode, (addressesFrom first nodes).Pairwise (List.Lex (· < ·))
  | [] => .nil
  | child :: rest => by
    rw [addressesFrom, List.pairwise_append, List.pairwise_map]
    refine ⟨(pairwise_addresses child).imp .cons, pairwise_addressesFrom (first + 1) rest, ?_⟩
    intro above habove behind hbehind
    obtain ⟨address, -, rfl⟩ := List.mem_map.mp habove
    obtain ⟨i, -, later, rfl, -⟩ := mem_addressesFrom.mp hbehind
    exact .rel (by omega)

end

end Addresses

/-- Where an ancestor is the last child of the one above it, nothing goes on beside its branch. -/
def gap (isLast : Bool) : String := if isLast then "    " else "│   "

def connector (isLast : Bool) : String := if isLast then "└── " else "├── "

end GraphNode

namespace Graph

open GraphNode

/-- What stands before the label of a node at a depth: for each ancestor from the one below the
root on a gap, and behind these the connector of the node. -/
def lead (graph : Graph) (address : List Nat) : String :=
  match address.length - 1 with
  | 0 => ""
  | depth + 1 =>
      String.join ((List.range' 1 depth).map fun j =>
        gap (isLast graph.roots (address.take (j + 1)))) ++
      connector (isLast graph.roots address)

/-- The line of the node at an address. -/
def IsSegment (graph : Graph) (address : List Nat) (segment : String) : Prop :=
  ∃ node, at? graph.roots address = some node ∧
    segment = graph.lead address ++ node.occurrence.label ++ "\n"

end Graph

namespace GraphNode

/-- What stands before the label of a node of a forest behind the margin that is handed down to
the forest. -/
def leadFrom (nodes : List GraphNode) (address : List Nat) : String :=
  String.join ((List.range (address.length - 1)).map fun j =>
    gap (isLast nodes (address.take (j + 1)))) ++ connector (isLast nodes address)

/-- The line of a node of a forest, without the line feed. -/
def IsLine (margin : String) (nodes : List GraphNode) (address : List Nat) (line : String) : Prop :=
  ∃ node, at? nodes address = some node ∧
    line = margin ++ leadFrom nodes address ++ node.occurrence.label

section Lines

variable {nodes : List GraphNode} {node : GraphNode} {address : List Nat} {i : Nat}
  {margin line : String}

theorem isLast_take_cons (h : nodes[i]? = some node) (hne : address ≠ []) (j : Nat) :
    isLast nodes ((i :: address).take (j + 2)) = isLast node.dependsOn (address.take (j + 1)) := by
  have htake : address.take (j + 1) ≠ [] := by simp [hne]
  rw [List.take_succ_cons, isLast_cons h htake]

/-- Before the label of a node that is further down stands the gap of the one that it is below. -/
theorem leadFrom_cons (h : nodes[i]? = some node) (hne : address ≠ []) :
    leadFrom nodes (i :: address) =
      gap (i + 1 == nodes.length) ++ leadFrom node.dependsOn address := by
  obtain ⟨k, hk⟩ : ∃ k, address.length = k + 1 :=
    Nat.exists_eq_add_one.mpr (List.length_pos_iff.mpr hne)
  have hgaps : (List.range k).map (fun j => gap (isLast nodes ((i :: address).take (j + 2)))) =
      (List.range k).map fun j => gap (isLast node.dependsOn (address.take (j + 1))) :=
    List.map_congr_left fun j _ => by rw [isLast_take_cons h hne]
  unfold leadFrom
  rw [List.length_cons, hk, Nat.add_sub_cancel, Nat.add_sub_cancel, List.range_succ_eq_map,
    List.map_cons, List.map_map, isLast_cons h hne, String.join_cons, String.append_assoc]
  exact congrArg (fun gaps => _ ++ (String.join gaps ++ _)) hgaps

theorem IsLine.ne_nil (h : IsLine margin nodes address line) : address ≠ [] := by
  obtain ⟨node, hnode, -⟩ := h
  rintro rfl
  cases hnode

/-- A line below a node is one of the forest in which the node stands. -/
theorem IsLine.cons (h : nodes[i]? = some node)
    (hline : IsLine (margin ++ gap (i + 1 == nodes.length)) node.dependsOn address line) :
    IsLine margin nodes (i :: address) line := by
  have hne := hline.ne_nil
  obtain ⟨found, hfound, rfl⟩ := hline
  refine ⟨found, (at?_cons h hne).trans hfound, ?_⟩
  simp only [leadFrom_cons h hne, String.append_assoc]

theorem branchLines_cons (margin : String) (child : GraphNode) (rest : List GraphNode) :
    branchLines margin (child :: rest) =
      (margin ++ connector rest.isEmpty ++ child.occurrence.label) ::
        (child.linesBelow (margin ++ gap rest.isEmpty) ++ branchLines margin rest) := by
  cases h : rest.isEmpty <;> simp [branchLines, h, connector, gap]

mutual

theorem linesBelow_areLines (margin : String) : ∀ node : GraphNode,
    List.Forall₂ (IsLine margin node.dependsOn) (addressesFrom 0 node.dependsOn)
      (node.linesBelow margin)
  | .node _ dependsOn => branchLines_areLines margin [] dependsOn

/-- There is one line for each node, in order. The nodes may stand behind others in the forest. -/
theorem branchLines_areLines (margin : String) (front : List GraphNode) :
    ∀ nodes : List GraphNode,
      List.Forall₂ (IsLine margin (front ++ nodes)) (addressesFrom front.length nodes)
        (branchLines margin nodes)
  | [] => .nil
  | child :: rest => by
    have hchild : (front ++ child :: rest)[front.length]? = some child := by simp
    have hlast : (front.length + 1 == (front ++ child :: rest).length) = rest.isEmpty := by
      cases rest <;> simp
    have hbelow := linesBelow_areLines (margin ++ gap rest.isEmpty) child
    have hrest := branchLines_areLines margin (front ++ [child]) rest
    rw [List.append_assoc, List.length_append] at hrest
    have hlead : leadFrom (front ++ child :: rest) [front.length] = connector rest.isEmpty := by
      rw [leadFrom, isLast_singleton, hlast]
      exact String.empty_append
    rw [branchLines_cons, addressesFrom, addresses_eq, List.map_cons, List.cons_append]
    refine .cons ⟨child, hchild, by rw [hlead]⟩ (List.rel_append ?_ hrest)
    rw [List.forall₂_map_left_iff]
    exact hbelow.imp fun address line hline => .cons hchild (by rwa [hlast])

end

end Lines

end GraphNode

namespace Graph

open GraphNode

variable {graph : Graph} {node : GraphNode} {address : List Nat} {i : Nat} {line : String}

theorem lead_cons (h : graph.roots[i]? = some node) (hne : address ≠ []) :
    graph.lead (i :: address) = leadFrom node.dependsOn address := by
  obtain ⟨k, hk⟩ : ∃ k, address.length = k + 1 :=
    Nat.exists_eq_add_one.mpr (List.length_pos_iff.mpr hne)
  unfold lead leadFrom
  rw [List.length_cons, hk, Nat.add_sub_cancel, Nat.add_sub_cancel, isLast_cons h hne]
  dsimp only
  rw [List.range'_eq_map_range, List.map_map]
  refine congrArg (String.join · ++ _) (List.map_congr_left fun j _ => ?_)
  rw [Function.comp_apply, Nat.add_comm 1 j, isLast_take_cons h hne]

theorem IsSegment.of_line (h : graph.roots[i]? = some node)
    (hline : IsLine "" node.dependsOn address line) :
    graph.IsSegment (i :: address) (line ++ "\n") := by
  have hne := hline.ne_nil
  obtain ⟨found, hfound, rfl⟩ := hline
  refine ⟨found, (at?_cons h hne).trans hfound, ?_⟩
  rw [lead_cons h hne, String.empty_append]

/-- The lines of roots that stand behind others. -/
theorem lines_areSegments (front : List GraphNode) {nodes : List GraphNode}
    (h : graph.roots = front ++ nodes) :
    List.Forall₂ graph.IsSegment (addressesFrom front.length nodes)
      ((nodes.flatMap (·.lines)).map (· ++ "\n")) := by
  induction nodes generalizing front with
  | nil => exact .nil
  | cons root rest ih =>
    have hroot : graph.roots[front.length]? = some root := by simp [h]
    have hrest := ih (front ++ [root]) (by rw [h, List.append_assoc]; rfl)
    rw [List.length_append] at hrest
    have hlabel : graph.IsSegment [front.length] (root.occurrence.label ++ "\n") :=
      ⟨root, hroot, congrArg (· ++ "\n") String.empty_append.symm⟩
    rw [addressesFrom, addresses_eq, List.flatMap_cons, List.map_append, lines, List.map_cons,
      List.map_cons]
    refine List.rel_append (.cons hlabel ?_) hrest
    rw [List.forall₂_map_left_iff, List.forall₂_map_right_iff]
    exact (linesBelow_areLines "" root).imp fun address line hline => .of_line hroot hline

/-- A graph is drawn with one line for each of its nodes, in pre-order: a node stands before what
is below it, and that before the nodes beside it, so the addresses ascend. -/
theorem tree_eq_join_segments (graph : Graph) : ∃ (addresses : List (List Nat))
    (segments : List String),
    (∀ address, address ∈ addresses ↔ ∃ node, at? graph.roots address = some node) ∧
      addresses.Pairwise (List.Lex (· < ·)) ∧
      List.Forall₂ graph.IsSegment addresses segments ∧ graph.tree = String.join segments :=
  ⟨addressesFrom 0 graph.roots, _, fun _ => mem_addressesFrom_zero,
    pairwise_addressesFrom 0 graph.roots, lines_areSegments [] rfl, rfl⟩

end Graph

end ProcessLint
