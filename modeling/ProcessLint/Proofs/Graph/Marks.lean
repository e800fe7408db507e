import ProcessLint.Proofs.Graph.Unfolding

/-!
What the marks of a forest say. The nodes are listed as they are shown, each with the names above
it. The names opened so far are then those of the nodes with something below them that come
before, so each mark can be read off the forest alone.
-/
namespace ProcessLint

/-- A node of a forest. -/
structure Place where
  /-- The names above it, innermost first. -/
  branch : List String
  node : GraphNode

mutual

/-- A node and all below it, in the order in which they are shown. -/
def GraphNode.places (branch : List String) : GraphNode → List Place
  | .node occurrence dependsOn =>
      ⟨branch, .node occurrence dependsOn⟩ ::
        GraphNode.placesBelow (occurrence.name :: branch) dependsOn

def GraphNode.placesBelow (branch : List String) : List GraphNode → List Place
  | [] => []
  | child :: rest => child.places branch ++ GraphNode.placesBelow branch rest

end

theorem GraphNode.placesBelow_cons (branch : List String) (occurrence : Occurrence)
    (children rest : List GraphNode) :
    GraphNode.placesBelow branch (.node occurrence children :: rest) =
      ⟨branch, .node occurrence children⟩ ::
        (GraphNode.placesBelow (occurrence.name :: branch) children ++
          GraphNode.placesBelow branch rest) := rfl

def Graph.places (graph : Graph) : List Place := GraphNode.placesBelow [] graph.roots

def Occurrence.isMarked (o : Occurrence) : Bool := o.missing || o.cycle || o.shared

namespace Place

/-- What the node is called. -/
def name (place : Place) : String := place.node.name

/-- There is something below the node. -/
def IsParent (place : Place) : Prop := place.node.dependsOn ≠ []

variable {branch : List String} {occurrence : Occurrence} {children : List GraphNode}

@[simp] theorem name_node : name ⟨branch, .node occurrence children⟩ = occurrence.name := rfl

@[simp] theorem isParent_node : IsParent ⟨branch, .node occurrence children⟩ ↔ children ≠ [] :=
  Iff.rfl

end Place

namespace Graph

open GraphNode

/-- What a node shows is so, given the nodes that are shown before it. -/
structure IsTruthful (doc : Document) (before : List Place) (place : Place) : Prop where
  cycle : place.node.occurrence.cycle = true ↔ place.name ∈ place.branch
  missing : place.node.occurrence.missing = true ↔ ¬ doc.IsDeclared place.name
  shared : place.node.occurrence.shared = true ↔
    place.name ∉ place.branch ∧ doc.Waits place.name ∧
      ∃ earlier ∈ before, earlier.name = place.name ∧ earlier.IsParent
  marks : [place.node.occurrence.cycle, place.node.occurrence.missing,
    place.node.occurrence.shared].count true ≤ 1
  marked : place.node.occurrence.isMarked = true → ¬ place.IsParent
  unmarked : place.node.occurrence.isMarked = false →
    ∃ p ∈ doc.processes, p.name = place.name ∧ place.node.dependsOn.map demand = p.demands
  path : (place.name :: place.branch).Nodup ∨
    place.branch.Nodup ∧ place.node.occurrence.cycle = true ∧ ¬ place.IsParent

/-- Nodes that are shown one after the other are truthful. -/
def AreTruthful (doc : Document) (before : List Place) : List Place → Prop
  | [] => True
  | place :: rest => IsTruthful doc before place ∧ AreTruthful doc (before ++ [place]) rest

theorem AreTruthful.append {doc : Document} {places more : List Place} :
    ∀ {before : List Place}, AreTruthful doc before places →
      AreTruthful doc (before ++ places) more → AreTruthful doc before (places ++ more) := by
  induction places with
  | nil =>
    intro before _ hmore
    rwa [List.append_nil] at hmore
  | cons place places ih =>
    rintro before ⟨hplace, hplaces⟩ hmore
    refine ⟨hplace, ih hplaces ?_⟩
    rwa [List.append_assoc]

theorem AreTruthful.of_append {doc : Document} {place : Place} {later earlier : List Place} :
    ∀ {before : List Place}, AreTruthful doc before (earlier ++ place :: later) →
      IsTruthful doc (before ++ earlier) place := by
  induction earlier with
  | nil =>
    intro before h
    rw [List.append_nil]
    exact h.1
  | cons first earlier ih =>
    intro before h
    have hrest := ih h.2
    rwa [List.append_assoc] at hrest

/-- A process that waits for others is opened just when a node before has them below it. -/
def Records (doc : Document) (before : List Place) (reached : Reached) : Prop :=
  ∀ name, (∃ earlier ∈ before, earlier.name = name ∧ earlier.IsParent) ↔
    name ∈ reached ∧ doc.Waits name

variable {doc : Document} {statuses : Statuses}

namespace Records

theorem nil : Records doc [] [] := by simp [Records]

variable {before : List Place} {reached : Reached} {place : Place}

theorem leaf (h : Records doc before reached) (hleaf : ¬ place.IsParent) :
    Records doc (before ++ [place]) reached := by
  intro name
  rw [← h name]
  simp only [List.mem_append, List.mem_singleton]
  constructor
  · rintro ⟨earlier, hbefore | rfl, hname, hparent⟩
    · exact ⟨earlier, hbefore, hname, hparent⟩
    · exact absurd hparent hleaf
  · rintro ⟨earlier, hbefore, hparent⟩
    exact ⟨earlier, .inl hbefore, hparent⟩

theorem opened (h : Records doc before reached) (hparent : place.IsParent ↔ doc.Waits place.name) :
    Records doc (before ++ [place]) (place.name :: reached) := by
  intro name
  simp only [List.mem_append, List.mem_cons, List.not_mem_nil, or_false]
  constructor
  · rintro ⟨earlier, hbefore | rfl, rfl, hearlier⟩
    · obtain ⟨hreached, hwaits⟩ := (h _).mp ⟨earlier, hbefore, rfl, hearlier⟩
      exact ⟨.inr hreached, hwaits⟩
    · exact ⟨.inl rfl, hparent.mp hearlier⟩
  · rintro ⟨rfl | hreached, hwaits⟩
    · exact ⟨place, .inr rfl, rfl, hparent.mpr hwaits⟩
    · obtain ⟨earlier, hbefore, hearlier⟩ := (h name).mpr ⟨hreached, hwaits⟩
      exact ⟨earlier, .inl hbefore, hearlier⟩

end Records

section Truth

variable {branch : List String} {before : List Place} {reached : Reached} {demand : Demand}

theorem Leaf.isTruthful {occurrence : Occurrence} (hnodup : (doc.processes.map (·.name)).Nodup)
    (hbranch : IsBranch doc branch) (hbefore : Records doc before reached)
    (h : Leaf doc statuses branch reached demand occurrence) :
    IsTruthful doc before ⟨branch, .node occurrence []⟩ := by
  cases h with
  | cycle hname =>
    have hdeclared := hbranch.declared _ hname
    constructor <;>
      simp [GraphNode.occurrence, unmarked, Occurrence.isMarked, hname, hdeclared, hbranch.nodup]
  | missing hname hnone =>
    have hdeclared := Document.process?_eq_none.mp hnone
    have hwaits : ¬ doc.Waits demand.1 := fun h => hdeclared (Document.isDeclared_of_waits h)
    constructor <;>
      simp [GraphNode.occurrence, unmarked, Occurrence.isMarked, hname, hdeclared, hwaits,
        hbranch.nodup]
  | @again p hname hsome hreached =>
    obtain ⟨hmem, hpname⟩ := Document.mem_of_process? hsome
    have hdeclared := Document.isDeclared_of_process? hsome
    have hwaits := Document.waits_iff hnodup hsome
    constructor <;>
      simp [GraphNode.occurrence, unmarked, Occurrence.isMarked, hname, hdeclared,
        hbefore demand.1, hwaits, hreached, hbranch.nodup]
    case marks => exact List.count_le_length
    case unmarked =>
      intro hnone
      exact ⟨p, hmem, hpname, by simp [GraphNode.dependsOn, Process.demands, hnone]⟩

theorem isTruthful_opened {p : Process} {children : List GraphNode}
    (hbranch : IsBranch doc branch) (hbefore : Records doc before reached)
    (hname : demand.1 ∉ branch) (hsome : doc.process? demand.1 = some p)
    (hreached : demand.1 ∉ reached) (hchildren : children.map GraphNode.demand = p.demands) :
    IsTruthful doc before ⟨branch, .node (unmarked statuses demand) children⟩ := by
  obtain ⟨hmem, hpname⟩ := Document.mem_of_process? hsome
  have hdeclared := Document.isDeclared_of_process? hsome
  constructor <;>
    simp [GraphNode.occurrence, unmarked, Occurrence.isMarked, hname, hdeclared,
      hbefore demand.1, hreached, hbranch.nodup]
  case unmarked => exact ⟨p, hmem, hpname, hchildren⟩

end Truth

/-- A forest is truthful, and it records what it opens. -/
theorem Unfolds.areTruthful {branch : List String} {reached after : Reached}
    {demands : List Demand} {nodes : List GraphNode}
    (hnodup : (doc.processes.map (·.name)).Nodup)
    (h : Unfolds doc statuses branch reached demands nodes after) :
    ∀ {before : List Place}, IsBranch doc branch → Records doc before reached →
      AreTruthful doc before (placesBelow branch nodes) ∧
        Records doc (before ++ placesBelow branch nodes) after := by
  induction h with
  | nil =>
    intro before _ hbefore
    rw [placesBelow, List.append_nil]
    exact ⟨trivial, hbefore⟩
  | @leaf branch reached after demand demands occurrence nodes hleaf _ ih =>
    intro before hbranch hbefore
    have hplace : ¬ (⟨branch, .node occurrence []⟩ : Place).IsParent := fun h => h rfl
    obtain ⟨hrest, hafter⟩ := ih hbranch (hbefore.leaf hplace)
    rw [List.append_assoc] at hafter
    rw [placesBelow_cons]
    exact ⟨⟨hleaf.isTruthful hnodup hbranch hbefore, hrest⟩, hafter⟩
  | @opened branch reached below after demand demands children nodes p hname hsome hreached
      hchildren _ ihchildren ih =>
    intro before hbranch hbefore
    let place : Place := ⟨branch, .node (unmarked statuses demand) children⟩
    have hdemands := hchildren.map_demand
    have hparent : place.IsParent ↔ doc.Waits place.name := by
      refine Iff.trans (not_congr ?_) (Document.waits_iff hnodup hsome).symm
      change children = [] ↔ p.dependsOn = []
      rw [← Process.demands_eq_nil, ← hdemands, List.map_eq_nil_iff]
    have hopened := hbranch.cons hname (Document.isDeclared_of_process? hsome)
    obtain ⟨hbelow, hmid⟩ := ihchildren hopened (hbefore.opened hparent)
    obtain ⟨hrest, hafter⟩ := ih hbranch hmid
    rw [List.append_assoc, List.append_assoc] at hafter
    have hplace : IsTruthful doc before place :=
      isTruthful_opened hbranch hbefore hname hsome hreached hdemands
    rw [placesBelow_cons]
    exact ⟨⟨hplace, hbelow.append hrest⟩, hafter⟩

theorem IsUnfolded.isTruthful {graph : Graph} {reached : Reached} {before after : List Place}
    {place : Place} (hnodup : (doc.processes.map (·.name)).Nodup)
    (h : IsUnfolded doc statuses graph reached)
    (hplaces : graph.places = before ++ place :: after) : IsTruthful doc before place := by
  have htruthful : AreTruthful doc [] graph.places := (h.areTruthful hnodup .nil .nil).1
  rw [hplaces] at htruthful
  exact htruthful.of_append

theorem IsTruthful.unmarked_of_isParent {before : List Place} {place : Place}
    (h : IsTruthful doc before place) (hparent : place.IsParent) :
    place.node.occurrence.isMarked = false := by
  by_contra hmarked
  exact h.marked (by simpa using hmarked) hparent

/-- What stands below a node is not shown below another of its name. -/
theorem IsTruthful.not_isParent {before : List Place} {place : Place}
    (h : IsTruthful doc before place)
    (hearlier : ∃ earlier ∈ before, earlier.name = place.name ∧ earlier.IsParent) :
    ¬ place.IsParent := by
  intro hparent
  have hunmarked := h.unmarked_of_isParent hparent
  obtain ⟨p, hp, hname, hchildren⟩ := h.unmarked hunmarked
  simp only [Occurrence.isMarked, Bool.or_eq_false_iff] at hunmarked
  have hbranch : place.name ∉ place.branch := by
    rw [← h.cycle, hunmarked.1.2]
    exact Bool.false_ne_true
  have hwaits : p.dependsOn ≠ [] := by
    rwa [Ne, ← Process.demands_eq_nil, ← hchildren, List.map_eq_nil_iff]
  have hshared := h.shared.mpr ⟨hbranch, ⟨p, hp, hname, hwaits⟩, hearlier⟩
  rw [hunmarked.2] at hshared
  cases hshared

/-- Every node of a graph shows what is so: it closes a cycle just when its name stands above it,
is missing just when no process has its name, and is shared just when its process waits for others
and they stand below a node of this name that is shown before. It has at most one of these marks,
and nothing below it if it has one; otherwise the dependencies of its process are below it, in
order. No name is repeated above a node, and its own only where it closes a cycle. -/
theorem marks_truthful (doc : Document) (statuses : Statuses)
    (hnodup : (doc.processes.map (·.name)).Nodup) (graph : Graph)
    (hgraph : graph = ofDocument doc statuses ∨ ∃ name, ofProcess? doc statuses name = some graph)
    (before after : List Place) (place : Place)
    (hplaces : graph.places = before ++ place :: after) : IsTruthful doc before place := by
  obtain ⟨reached, hunfolded⟩ : ∃ reached, IsUnfolded doc statuses graph reached := by
    rcases hgraph with rfl | ⟨name, hname⟩
    · exact ofDocument_isUnfolded doc statuses
    · exact ofProcess?_isUnfolded hname
  exact hunfolded.isTruthful hnodup hplaces

/-- A process that is opened below itself is shared there: its own name below it closed a cycle,
and a name that no process has is met twice. -/
theorem marks_truthful_tangled : ∃ before place after,
    (ofDocument .tangled fun _ => none).places = before ++ place :: after ∧
      place.name = "db" ∧ place.branch = ["web", "api", "job"] ∧
      place.node.occurrence.shared = true ∧ IsTruthful .tangled before place := by
  let graph := ofDocument .tangled fun _ => none
  let place : Place :=
    ⟨["web", "api", "job"], .node ⟨"db", some "process_started", none, false, false, true⟩ []⟩
  have hplaces : graph.places = graph.places.take 7 ++ place :: graph.places.drop 8 := rfl
  exact ⟨_, place, _, hplaces, rfl, rfl, rfl,
    marks_truthful .tangled (fun _ => none) (by decide) graph (.inl rfl) _ _ place hplaces⟩

end Graph

end ProcessLint
