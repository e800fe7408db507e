import Mathlib.Data.Prod.Basic
import ProcessLint.Graph.Flowchart
import ProcessLint.Proofs.Graph.Size

/-!
The edges of a graph are the dependencies of its document. A process that is opened shows all that
it waits for, and each is opened once, so every dependency is shown once, although nothing is
shown below most occurrences of a name.
-/
namespace ProcessLint

namespace Document

/-- The names that the process of a name waits for, each with that name in front. -/
def pairs (doc : Document) (name : String) : List (String × String) :=
  ((doc.process? name).map (·.dependsOn)).getD [] |>.map fun d => (name, d.name)

/-- All dependencies that are declared. -/
def declaredPairs (doc : Document) : List (String × String) :=
  doc.processes.flatMap fun p => p.dependsOn.map fun d => (p.name, d.name)

variable {doc : Document}

theorem pairs_eq {name : String} {p : Process} (h : doc.process? name = some p) :
    doc.pairs name = p.demands.map fun demand => (name, demand.1) := by
  simp [pairs, h, Process.demands]

theorem flatMap_pairs (hnodup : (doc.processes.map (·.name)).Nodup) :
    (doc.processes.map (·.name)).flatMap doc.pairs = doc.declaredPairs := by
  rw [List.flatMap_map, declaredPairs]
  refine List.flatMap_congr fun p hp => ?_
  rw [pairs_eq ((process?_eq_some hnodup).mpr ⟨hp, rfl⟩)]
  simp [Process.demands]

theorem mem_declaredPairs {name other : String} :
    (name, other) ∈ doc.declaredPairs ↔ doc.DependsOn name other := by
  simp only [declaredPairs, DependsOn, List.mem_flatMap, List.mem_map, Prod.mk.injEq]
  constructor
  · rintro ⟨p, hp, d, hd, rfl, rfl⟩
    exact ⟨p, hp, rfl, d, hd, rfl⟩
  · rintro ⟨p, hp, rfl, d, hd, rfl⟩
    exact ⟨p, hp, d, hd, rfl, rfl⟩

theorem DependsOn.waits {name other : String} (h : doc.DependsOn name other) : doc.Waits name := by
  obtain ⟨p, hp, hname, d, hd, -⟩ := h
  exact ⟨p, hp, hname, List.ne_nil_of_mem hd⟩

theorem nodup_declaredPairs (hnodup : (doc.processes.map (·.name)).Nodup)
    (hneeds : ∀ p ∈ doc.processes, (p.dependsOn.map (·.name)).Nodup) :
    doc.declaredPairs.Nodup := by
  rw [declaredPairs, List.nodup_flatMap]
  constructor
  · intro p hp
    have hpairs := (hneeds p hp).map (Prod.mk_right_injective p.name)
    rwa [List.map_map] at hpairs
  · rw [List.Nodup, List.pairwise_map] at hnodup
    refine hnodup.imp fun hne => ?_
    rintro ⟨name, other⟩ hp hq
    simp only [List.mem_map, Prod.mk.injEq] at hp hq
    obtain ⟨-, -, rfl, -⟩ := hp
    obtain ⟨-, -, heq, -⟩ := hq
    exact hne heq.symm

end Document

namespace Place

/-- The node with what is above it; none for a root. -/
def edge (place : Place) : Option (String × String) :=
  place.branch.head?.map fun parent => (parent, place.name)

end Place

namespace GraphNode

theorem pairsBelow_eq_flatMap (name : String) (children : List GraphNode) :
    pairsBelow name children = children.flatMap fun child => (name, child.name) :: child.pairs := by
  induction children with
  | nil => rfl
  | cons child rest ih => rw [pairsBelow, ih, List.flatMap_cons]

/-- Edges come in the order of the nodes that they lead to. -/
theorem filterMap_edge_placesBelow (nodes : List GraphNode) :
    ∀ (name : String) (branch : List String),
      (placesBelow (name :: branch) nodes).filterMap Place.edge = pairsBelow name nodes := by
  intro name branch
  match nodes with
  | [] => rfl
  | .node occurrence children :: rest =>
    have hchildren := filterMap_edge_placesBelow children occurrence.name (name :: branch)
    have hrest := filterMap_edge_placesBelow rest name branch
    have hedge : Place.edge ⟨name :: branch, .node occurrence children⟩ =
        some (name, occurrence.name) := rfl
    rw [placesBelow_cons, List.filterMap_cons, hedge, List.filterMap_append, hchildren, hrest]
    rfl

theorem filterMap_edge_roots (roots : List GraphNode) :
    (placesBelow [] roots).filterMap Place.edge = roots.flatMap (·.pairs) := by
  induction roots with
  | nil => rfl
  | cons root rest ih =>
    obtain ⟨occurrence, children⟩ := root
    have hedge : Place.edge ⟨[], .node occurrence children⟩ = none := rfl
    rw [placesBelow_cons, List.filterMap_cons, hedge, List.filterMap_append,
      filterMap_edge_placesBelow, ih]
    rfl

end GraphNode

private theorem eraseDups_eq_self {α : Type} [BEq α] [LawfulBEq α] :
    ∀ {items : List α}, items.Nodup → items.eraseDups = items
  | [], _ => rfl
  | item :: rest, h => by
    obtain ⟨hitem, hrest⟩ := List.nodup_cons.mp h
    have hkept : rest.filter (fun other => !other == item) = rest := by
      refine List.filter_eq_self.mpr fun other hother => ?_
      have hne : other ≠ item := fun heq => hitem (heq ▸ hother)
      simpa using hne
    rw [List.eraseDups_cons, hkept, eraseDups_eq_self hrest]

namespace Graph

open GraphNode

variable {doc : Document} {statuses : Statuses}

/-- What is shown below nodes are the dependencies of what is opened meanwhile. -/
theorem Unfolds.pairs_perm {branch : List String} {reached after : Reached}
    {demands : List Demand} {nodes : List GraphNode}
    (h : Unfolds doc statuses branch reached demands nodes after) :
    (nodes.flatMap (·.pairs) ++ reached.flatMap doc.pairs).Perm (after.flatMap doc.pairs) := by
  induction h with
  | nil => exact .refl _
  | leaf _ _ ih => exact ih
  | @opened branch reached below after demand demands children nodes p _ hsome _ hchildren _
      ihchildren ih =>
    have hown : (children.map fun child => (demand.1, child.name)) = doc.pairs demand.1 := by
      rw [Document.pairs_eq hsome, ← hchildren.map_demand, List.map_map]
      rfl
    have hnode : (GraphNode.node (unmarked statuses demand) children).pairs.Perm
        (doc.pairs demand.1 ++ children.flatMap (·.pairs)) := by
      rw [← hown]
      change (pairsBelow demand.1 children).Perm _
      rw [pairsBelow_eq_flatMap]
      exact (List.map_append_flatMap_perm children _ _).symm
    have hmid : ((doc.pairs demand.1 ++ children.flatMap (·.pairs)) ++
        reached.flatMap doc.pairs).Perm (below.flatMap doc.pairs) := by
      refine .trans ?_ ihchildren
      rw [List.flatMap_cons, ← List.append_assoc]
      exact List.perm_append_comm.append_right _
    rw [List.flatMap_cons, List.append_assoc]
    refine .trans (List.perm_append_comm_assoc ..) (.trans ?_ ih)
    exact ((hnode.append_right _).trans hmid).append_left _

section Declared

variable (statuses : Statuses) (hnodup : (doc.processes.map (·.name)).Nodup)
include hnodup

theorem pairs_perm : ((ofDocument doc statuses).roots.flatMap (·.pairs)).Perm doc.declaredPairs := by
  obtain ⟨reached, later, hunfolded, -, hroots, hexplores⟩ := ofDocument_explores statuses hnodup
  have hall : ∀ name, name ∈ reached ↔ doc.IsDeclared name := by
    intro name
    rw [hexplores name, and_iff_left_of_imp (hroots.reach name)]
  have hreached : reached.Perm (doc.processes.map (·.name)) :=
    (List.perm_ext_iff_of_nodup (hunfolded.nodup .nil) hnodup).mpr hall
  have hpairs := hunfolded.pairs_perm.trans (hreached.flatMap_right doc.pairs)
  rwa [Document.flatMap_pairs hnodup, List.flatMap_nil, List.append_nil] at hpairs

variable (hneeds : ∀ p ∈ doc.processes, (p.dependsOn.map (·.name)).Nodup)
include hneeds

/-- Nothing is shown twice, so nothing has to be left out. -/
theorem edges_eq_flatMap : (ofDocument doc statuses).edges =
    (ofDocument doc statuses).roots.flatMap (·.pairs) := by
  have hperm := pairs_perm statuses hnodup
  exact eraseDups_eq_self (hperm.nodup_iff.mpr (Document.nodup_declaredPairs hnodup hneeds))

theorem edges_perm : (ofDocument doc statuses).edges.Perm doc.declaredPairs := by
  rw [edges_eq_flatMap statuses hnodup hneeds]
  exact pairs_perm statuses hnodup

theorem edges_eq_filterMap : (ofDocument doc statuses).edges =
    (ofDocument doc statuses).places.filterMap Place.edge := by
  rw [edges_eq_flatMap statuses hnodup hneeds]
  exact (filterMap_edge_roots _).symm

theorem mem_edges {name other : String} :
    (name, other) ∈ (ofDocument doc statuses).edges ↔ doc.DependsOn name other := by
  rw [(edges_perm statuses hnodup hneeds).mem_iff, Document.mem_declaredPairs]

theorem mem_connected (name : String) :
    name ∈ ((ofDocument doc statuses).edges.flatMap fun (dependent, dependency) =>
        [dependent, dependency]) ↔ doc.Waits name ∨ doc.IsNeeded name := by
  simp only [List.mem_flatMap, List.mem_cons, List.not_mem_nil, or_false, Prod.exists,
    mem_edges statuses hnodup hneeds]
  constructor
  · rintro ⟨dependent, dependency, h, rfl | rfl⟩
    · exact .inl h.waits
    · exact .inr h.isNeeded
  · rintro (⟨p, hp, rfl, hwaits⟩ | ⟨p, hp, d, hd, rfl⟩)
    · obtain ⟨d, hd⟩ := List.exists_mem_of_ne_nil _ hwaits
      exact ⟨p.name, d.name, ⟨p, hp, rfl, d, hd, rfl⟩, .inl rfl⟩
    · exact ⟨p.name, d.name, ⟨p, hp, rfl, d, hd, rfl⟩, .inr rfl⟩

/-- Roots that stand alone are the processes that wait for none and that none waits for. -/
theorem isolated_eq : Flowchart.isolated (ofDocument doc statuses) =
    (doc.processes.filter fun p => p.dependsOn = [] ∧ ¬ doc.IsNeeded p.name).map (·.name) := by
  obtain ⟨first, later, hroots, hareRoots⟩ := ofDocument_roots doc statuses hnodup
  have hconnected := mem_connected statuses hnodup hneeds
  unfold Flowchart.isolated
  dsimp only
  generalize ((ofDocument doc statuses).edges.flatMap fun (dependent, dependency) =>
    [dependent, dependency]) = connected at hconnected
  have hlater : later.filter (fun name => !connected.contains name) = [] := by
    refine List.filter_eq_nil_iff.mpr fun name hname => ?_
    have hneeded := (List.mem_filter.mp (hareRoots.sublist.subset hname)).2
    have hmem : name ∈ connected := (hconnected name).mpr (.inr (by simpa using hneeded))
    simpa using hmem
  rw [hroots, List.filter_append, hlater, List.append_nil, hareRoots.first_eq,
    List.filter_filter, List.filter_map]
  congr 1
  refine List.filter_congr fun p hp => ?_
  have hwaits := Document.waits_iff hnodup ((Document.process?_eq_some hnodup).mpr ⟨hp, rfl⟩)
  rw [Bool.eq_iff_iff]
  simp [hconnected, hwaits]

end Declared

end Graph

end ProcessLint
