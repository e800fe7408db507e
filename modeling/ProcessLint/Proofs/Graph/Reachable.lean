import ProcessLint.Proofs.Graph.Edges

/-!
The graph of one process. All that is shown in it is below the process, and a whole root leaves
nothing closed, so it shows just what the process leads to: the processes, the names that they wait
for in vain, and the dependencies between them.
-/
namespace ProcessLint

namespace Document

variable {doc : Document}

theorem mem_pairs (hnodup : (doc.processes.map (·.name)).Nodup) {name dependent other : String} :
    (dependent, other) ∈ doc.pairs name ↔ dependent = name ∧ doc.DependsOn name other := by
  cases hsome : doc.process? name with
  | none =>
    have hnone : ¬ doc.DependsOn name other := fun h => process?_eq_none.mp hsome h.isDeclared
    simp [pairs, hsome, hnone]
  | some p =>
    rw [pairs_eq hsome, dependsOn_iff hnodup hsome, List.mem_map]
    constructor
    · rintro ⟨demand, hdemand, heq⟩
      cases heq
      exact ⟨rfl, demand, hdemand, rfl⟩
    · rintro ⟨rfl, demand, hdemand, rfl⟩
      exact ⟨demand, hdemand, rfl⟩

end Document

private theorem nodup_eraseDups {α : Type} [BEq α] [LawfulBEq α] (items : List α) :
    items.eraseDups.Nodup := by
  cases items with
  | nil => exact .nil
  | cons item rest =>
    rw [List.eraseDups_cons, List.nodup_cons]
    exact ⟨by simp [List.mem_eraseDups], nodup_eraseDups _⟩
termination_by items.length
decreasing_by
  have hshort := List.length_filter_le (fun other => !other == item) rest
  simp only [List.length_cons]
  omega

namespace Graph

open GraphNode

variable {doc : Document} {statuses : Statuses}

/-- Nothing is shown but what the demands lead to. -/
theorem Unfolds.leads_of_place {branch : List String} {reached after : Reached}
    {demands : List Demand} {nodes : List GraphNode}
    (hnodup : (doc.processes.map (·.name)).Nodup)
    (h : Unfolds doc statuses branch reached demands nodes after) :
    ∀ place ∈ placesBelow branch nodes, ∃ demand ∈ demands, doc.Leads demand.1 place.name := by
  induction h with
  | nil =>
    intro place hplace
    cases hplace
  | @leaf branch reached after demand demands occurrence nodes hleaf _ ih =>
    have hname : occurrence.name = demand.1 := congrArg Prod.fst (hleaf.demand_eq [])
    intro place hplace
    rw [placesBelow_cons] at hplace
    rcases List.mem_cons.mp hplace with rfl | hplace
    · rw [Place.name_node, hname]
      exact ⟨demand, List.mem_cons_self .., .refl⟩
    · obtain ⟨other, hother, hleads⟩ := ih place hplace
      exact ⟨other, List.mem_cons_of_mem _ hother, hleads⟩
  | @opened branch reached below after demand demands children nodes p _ hsome _ _ _ ihchildren
      ih =>
    intro place hplace
    rw [placesBelow_cons] at hplace
    rcases List.mem_cons.mp hplace with rfl | hplace
    · exact ⟨demand, List.mem_cons_self .., .refl⟩
    rcases List.mem_append.mp hplace with hplace | hplace
    · obtain ⟨child, hchild, hleads⟩ := ihchildren place hplace
      have hstep := (Document.dependsOn_iff hnodup hsome).mpr ⟨child, hchild, rfl⟩
      exact ⟨demand, List.mem_cons_self .., hleads.head hstep⟩
    · obtain ⟨other, hother, hleads⟩ := ih place hplace
      exact ⟨other, List.mem_cons_of_mem _ hother, hleads⟩

/-- The graph shows just what a name leads to. -/
structure IsReachablePart (doc : Document) (name : String) (graph : Graph) : Prop where
  root : ∃ root, graph.roots = [root] ∧ root.name = name
  processes : ∀ other, doc.IsDeclared other →
    ((∃ place ∈ graph.places, place.name = other) ↔ doc.Leads name other)
  missing : ∀ other,
    (∃ place ∈ graph.places, place.name = other ∧ place.node.occurrence.missing = true) ↔
      ¬ doc.IsDeclared other ∧
        ∃ dependent, doc.Leads name dependent ∧ doc.DependsOn dependent other
  edges_nodup : graph.edges.Nodup
  edges : ∀ dependent other, (dependent, other) ∈ graph.edges ↔
    doc.Leads name dependent ∧ doc.DependsOn dependent other

section Explored

variable {graph : Graph} {reached : Reached} {root : GraphNode} {dependent other : String}

/-- The edges are the dependencies of what is opened. -/
theorem IsUnfolded.mem_edges (hnodup : (doc.processes.map (·.name)).Nodup)
    (h : IsUnfolded doc statuses graph reached) :
    (dependent, other) ∈ graph.edges ↔ dependent ∈ reached ∧ doc.DependsOn dependent other := by
  have hpairs := h.pairs_perm
  rw [List.flatMap_nil, List.append_nil] at hpairs
  rw [edges, List.mem_eraseDups, hpairs.mem_iff, List.mem_flatMap]
  constructor
  · rintro ⟨opened, hopened, hpair⟩
    obtain ⟨rfl, hdepends⟩ := (Document.mem_pairs hnodup).mp hpair
    exact ⟨hopened, hdepends⟩
  · rintro ⟨hopened, hdepends⟩
    exact ⟨dependent, hopened, (Document.mem_pairs hnodup).mpr ⟨rfl, hdepends⟩⟩

/-- What a shown process waits for is shown below it. -/
theorem exists_place_of_mem_edges (h : (dependent, other) ∈ graph.edges) :
    ∃ place ∈ graph.places, place.name = other := by
  rw [edges, List.mem_eraseDups, ← filterMap_edge_roots] at h
  obtain ⟨place, hplace, hedge⟩ := List.mem_filterMap.mp h
  obtain ⟨parent, -, hpair⟩ := Option.map_eq_some_iff.mp hedge
  exact ⟨place, hplace, (Prod.mk.inj hpair).2⟩

theorem IsUnfolded.of_singleton (h : IsUnfolded doc statuses graph reached)
    (hroots : graph.roots = [root]) :
    Unfolds doc statuses [] [] [root.demand] graph.roots reached := by
  simpa only [IsUnfolded, hroots, List.map_singleton] using h

/-- Behind a root that stands alone all is opened that it leads to. -/
theorem IsUnfolded.mem_reached (hnodup : (doc.processes.map (·.name)).Nodup)
    (h : IsUnfolded doc statuses graph reached) (hroots : graph.roots = [root]) :
    other ∈ reached ↔ doc.IsDeclared other ∧ doc.Leads root.name other := by
  have hnothing : Explores doc [] [] := by simp [Explores]
  have hexplores := hnothing.append hnodup (h.of_singleton hroots) other
  simpa [GraphNode.demand] using hexplores

theorem IsUnfolded.leads_of_mem_places (hnodup : (doc.processes.map (·.name)).Nodup)
    (h : IsUnfolded doc statuses graph reached) (hroots : graph.roots = [root]) {place : Place}
    (hplace : place ∈ graph.places) : doc.Leads root.name place.name := by
  obtain ⟨demand, hdemand, hleads⟩ := (h.of_singleton hroots).leads_of_place hnodup place hplace
  rwa [List.mem_singleton.mp hdemand] at hleads

theorem IsUnfolded.missing_iff (hnodup : (doc.processes.map (·.name)).Nodup)
    (h : IsUnfolded doc statuses graph reached) {place : Place} (hplace : place ∈ graph.places) :
    place.node.occurrence.missing = true ↔ ¬ doc.IsDeclared place.name := by
  obtain ⟨before, after, hsplit⟩ := List.append_of_mem hplace
  exact (h.isTruthful hnodup hsplit).missing

theorem IsUnfolded.isReachablePart (hnodup : (doc.processes.map (·.name)).Nodup)
    (h : IsUnfolded doc statuses graph reached) (hroots : graph.roots = [root]) {name : String}
    (hname : root.name = name) (hdeclared : doc.IsDeclared name) :
    IsReachablePart doc name graph := by
  subst hname
  have hleads {place : Place} (hplace : place ∈ graph.places) : doc.Leads root.name place.name :=
    h.leads_of_mem_places hnodup hroots hplace
  have hedges (dependent other : String) : (dependent, other) ∈ graph.edges ↔
      doc.Leads root.name dependent ∧ doc.DependsOn dependent other := by
    rw [h.mem_edges hnodup, h.mem_reached hnodup hroots]
    constructor
    · rintro ⟨⟨-, hreach⟩, hdepends⟩
      exact ⟨hreach, hdepends⟩
    · rintro ⟨hreach, hdepends⟩
      exact ⟨⟨hdepends.isDeclared, hreach⟩, hdepends⟩
  constructor
  case root => exact ⟨root, hroots, rfl⟩
  case processes =>
    intro other hother
    constructor
    · rintro ⟨place, hplace, rfl⟩
      exact hleads hplace
    · intro hreach
      have hopened := (h.mem_reached hnodup hroots).mpr ⟨hother, hreach⟩
      exact (h.exists_place other hopened).resolve_left List.not_mem_nil
  case missing =>
    intro other
    constructor
    · rintro ⟨place, hplace, rfl, hmissing⟩
      have hnone := (h.missing_iff hnodup hplace).mp hmissing
      refine ⟨hnone, ?_⟩
      -- The root is declared, so a missing name is not the root: something waits for it.
      rcases (hleads hplace).cases_tail with heq | ⟨dependent, hreach, hdepends⟩
      · rw [heq] at hnone
        exact absurd hdeclared hnone
      · exact ⟨dependent, hreach, hdepends⟩
    · rintro ⟨hnone, dependent, hreach, hdepends⟩
      have hedge := (hedges dependent other).mpr ⟨hreach, hdepends⟩
      obtain ⟨place, hplace, rfl⟩ := exists_place_of_mem_edges hedge
      exact ⟨place, hplace, rfl, (h.missing_iff hnodup hplace).mpr hnone⟩
  case edges_nodup => exact nodup_eraseDups _
  case edges => exact hedges

end Explored

/-- A process has a graph of its own just if it is declared, and this shows what the process leads
to and nothing else, each dependency once. -/
theorem ofProcess?_isReachablePart (doc : Document) (statuses : Statuses) (name : String)
    (hnodup : (doc.processes.map (·.name)).Nodup) :
    (ofProcess? doc statuses name = none ↔ ¬ doc.IsDeclared name) ∧
      ∀ graph, ofProcess? doc statuses name = some graph → IsReachablePart doc name graph := by
  refine ⟨by rw [ofProcess?, Option.map_eq_none_iff, Document.process?_eq_none], ?_⟩
  intro graph hgraph
  obtain ⟨reached, hunfolded⟩ := ofProcess?_isUnfolded hgraph
  obtain ⟨p, hsome, rfl⟩ := Option.map_eq_some_iff.mp hgraph
  obtain ⟨-, rfl⟩ := Document.mem_of_process? hsome
  have hdemand := (expandRoot_unfolds doc statuses p.name []).map_demand
  have hname : (expandRoot doc statuses p.name []).1.name = p.name :=
    congrArg Prod.fst (List.cons.inj hdemand).1
  exact hunfolded.isReachablePart hnodup rfl hname (Document.isDeclared_of_process? hsome)

/-- Below the process are a cycle, a process that waits for itself and a name that is missing;
neither the process that waits for it nor the one that stands alone is shown. -/
theorem ofProcess?_isReachablePart_tangled : ∃ graph,
    ofProcess? .tangled (fun _ => none) "api" = some graph ∧
      graph.edges = [("api", "db"), ("db", "ghost"), ("db", "db"), ("api", "web"), ("web", "api"),
        ("web", "db"), ("api", "ghost")] ∧
      IsReachablePart .tangled "api" graph := by
  obtain ⟨-, hpart⟩ := ofProcess?_isReachablePart .tangled (fun _ => none) "api" (by decide)
  exact ⟨_, rfl, by decide +kernel, hpart _ rfl⟩

end Graph

end ProcessLint
