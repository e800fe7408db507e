import Mathlib.Data.List.Perm.Subperm
import ProcessLint.Graph.Basic
import ProcessLint.Proofs.Document.Lookup

/-!
The rules by which a forest unfolds, with no bound on its depth. Names of a branch differ and are
declared, so a branch is no longer than the processes are many: the bound on the depth is never
met, and every forest that is built follows the rules.
-/
namespace ProcessLint

/-- A name that is to be shown, with the condition on which it is waited for. -/
abbrev Demand := String × Option String

/-- What the dependencies of a process ask for. -/
def Process.demands (p : Process) : List Demand :=
  p.dependsOn.map fun d => (d.name, some d.condition.tag)

@[simp] theorem Process.demands_eq_nil {p : Process} : p.demands = [] ↔ p.dependsOn = [] := by
  simp [demands]

/-- What an occurrence answers. -/
def GraphNode.demand (node : GraphNode) : Demand := (node.name, node.occurrence.condition)

namespace Graph

/-- The occurrence for a demand, with no mark on it. -/
def unmarked (statuses : Statuses) (demand : Demand) : Occurrence :=
  ⟨demand.1, demand.2, statuses demand.1, false, false, false⟩

/-- Where nothing is opened: the name is on the branch, no process has it, or it is opened
already. -/
inductive Leaf (doc : Document) (statuses : Statuses) (branch : List String) (reached : Reached)
    (demand : Demand) : Occurrence → Prop
  | cycle (hbranch : demand.1 ∈ branch) :
      Leaf doc statuses branch reached demand { unmarked statuses demand with cycle := true }
  | missing (hbranch : demand.1 ∉ branch) (hnone : doc.process? demand.1 = none) :
      Leaf doc statuses branch reached demand { unmarked statuses demand with missing := true }
  | again {p : Process} (hbranch : demand.1 ∉ branch) (hsome : doc.process? demand.1 = some p)
      (hreached : demand.1 ∈ reached) :
      Leaf doc statuses branch reached demand
        { unmarked statuses demand with shared := !p.dependsOn.isEmpty }

/-- What demands below a branch come to one after the other, and what is opened then. -/
inductive Unfolds (doc : Document) (statuses : Statuses) :
    List String → Reached → List Demand → List GraphNode → Reached → Prop
  | nil {branch : List String} {reached : Reached} :
      Unfolds doc statuses branch reached [] [] reached
  | leaf {branch : List String} {reached after : Reached} {demand : Demand}
      {demands : List Demand} {occurrence : Occurrence} {nodes : List GraphNode}
      (hleaf : Leaf doc statuses branch reached demand occurrence)
      (hrest : Unfolds doc statuses branch reached demands nodes after) :
      Unfolds doc statuses branch reached (demand :: demands) (.node occurrence [] :: nodes) after
  | opened {branch : List String} {reached below after : Reached} {demand : Demand}
      {demands : List Demand} {children nodes : List GraphNode} {p : Process}
      (hbranch : demand.1 ∉ branch) (hsome : doc.process? demand.1 = some p)
      (hreached : demand.1 ∉ reached)
      (hchildren : Unfolds doc statuses (demand.1 :: branch) (demand.1 :: reached) p.demands
        children below)
      (hrest : Unfolds doc statuses branch below demands nodes after) :
      Unfolds doc statuses branch reached (demand :: demands)
        (.node (unmarked statuses demand) children :: nodes) after

variable {doc : Document} {statuses : Statuses}

theorem Leaf.unique {branch : List String} {reached : Reached} {demand : Demand}
    {occurrence other : Occurrence} (h : Leaf doc statuses branch reached demand occurrence)
    (h' : Leaf doc statuses branch reached demand other) : occurrence = other := by
  cases h <;> cases h' <;> simp_all

theorem Leaf.not_opened {branch : List String} {reached : Reached} {demand : Demand}
    {occurrence : Occurrence} {p : Process}
    (h : Leaf doc statuses branch reached demand occurrence) (hbranch : demand.1 ∉ branch)
    (hsome : doc.process? demand.1 = some p) : demand.1 ∈ reached := by
  cases h <;> simp_all

theorem Leaf.demand_eq {branch : List String} {reached : Reached} {demand : Demand}
    {occurrence : Occurrence} (h : Leaf doc statuses branch reached demand occurrence)
    (children : List GraphNode) : (GraphNode.node occurrence children).demand = demand := by
  cases h <;> rfl

namespace Unfolds

variable {branch : List String} {reached mid after : Reached} {demands more : List Demand}
  {nodes rest : List GraphNode}

theorem append (h : Unfolds doc statuses branch reached demands nodes mid)
    (hmore : Unfolds doc statuses branch mid more rest after) :
    Unfolds doc statuses branch reached (demands ++ more) (nodes ++ rest) after := by
  induction h with
  | nil => exact hmore
  | leaf hleaf _ ih => exact .leaf hleaf (ih hmore)
  | opened hbranch hsome hreached hchildren _ _ ih =>
    exact .opened hbranch hsome hreached hchildren (ih hmore)

/-- Demands come to one forest only. -/
theorem unique {others : List GraphNode} {after' : Reached}
    (h : Unfolds doc statuses branch reached demands nodes after)
    (h' : Unfolds doc statuses branch reached demands others after') :
    nodes = others ∧ after = after' := by
  induction h generalizing others after' with
  | nil =>
    cases h'
    exact ⟨rfl, rfl⟩
  | leaf hleaf _ ih =>
    cases h' with
    | leaf hleaf' hrest =>
      obtain ⟨rfl, rfl⟩ := ih hrest
      exact ⟨by rw [hleaf.unique hleaf'], rfl⟩
    | opened hbranch hsome hreached => exact absurd (hleaf.not_opened hbranch hsome) hreached
  | opened hbranch hsome hreached _ _ ihchildren ih =>
    cases h' with
    | leaf hleaf => exact absurd (hleaf.not_opened hbranch hsome) hreached
    | opened _ hsome' _ hchildren hrest =>
      cases hsome.symm.trans hsome'
      obtain ⟨rfl, rfl⟩ := ihchildren hchildren
      obtain ⟨rfl, rfl⟩ := ih hrest
      exact ⟨rfl, rfl⟩

/-- There is one node for each demand, in order. -/
theorem map_demand (h : Unfolds doc statuses branch reached demands nodes after) :
    nodes.map GraphNode.demand = demands := by
  induction h with
  | nil => rfl
  | leaf hleaf _ ih => rw [List.map_cons, hleaf.demand_eq, ih]
  | opened _ _ _ _ _ _ ih => rw [List.map_cons, ih]; rfl

theorem of_nodes (h : Unfolds doc statuses branch reached demands nodes after) :
    Unfolds doc statuses branch reached (nodes.map GraphNode.demand) nodes after := by
  rwa [h.map_demand]

end Unfolds

/-- Names of a branch differ, and each is a process. -/
structure IsBranch (doc : Document) (branch : List String) : Prop where
  nodup : branch.Nodup
  declared : ∀ name ∈ branch, doc.IsDeclared name

namespace IsBranch

theorem nil : IsBranch doc [] := ⟨.nil, by simp⟩

theorem cons {branch : List String} {name : String} (h : IsBranch doc branch)
    (hbranch : name ∉ branch) (hname : doc.IsDeclared name) : IsBranch doc (name :: branch) :=
  ⟨List.nodup_cons.mpr ⟨hbranch, h.nodup⟩, List.forall_mem_cons.mpr ⟨hname, h.declared⟩⟩

theorem length_le {branch : List String} (h : IsBranch doc branch) :
    branch.length ≤ doc.processes.length := by
  have hsub : branch ⊆ doc.processes.map (·.name) := fun name hname => h.declared name hname
  simpa using (h.nodup.subperm hsub).length_le

end IsBranch

/-- A name that is no leaf is opened. -/
theorem leaf_or_opened (doc : Document) (statuses : Statuses) (branch : List String)
    (reached : Reached) (demand : Demand) :
    (∃ occurrence, Leaf doc statuses branch reached demand occurrence) ∨
      demand.1 ∉ branch ∧ demand.1 ∉ reached ∧ ∃ p, doc.process? demand.1 = some p := by
  by_cases hbranch : demand.1 ∈ branch
  · exact .inl ⟨_, .cycle hbranch⟩
  · cases hsome : doc.process? demand.1 with
    | none => exact .inl ⟨_, .missing hbranch hsome⟩
    | some p =>
      by_cases hreached : demand.1 ∈ reached
      · exact .inl ⟨_, .again hbranch hsome hreached⟩
      · exact .inr ⟨hbranch, hreached, p, rfl⟩

theorem expand_leaf {branch : List String} {reached : Reached} {demand : Demand}
    {occurrence : Occurrence} (h : Leaf doc statuses branch reached demand occurrence)
    (depth : Nat) :
    expand doc statuses depth branch demand.1 demand.2 reached =
      (.node occurrence [], reached) := by
  unfold expand
  dsimp only
  cases h with
  | cycle hbranch =>
    rw [if_pos (by simpa using hbranch)]
    rfl
  | missing hbranch hnone =>
    rw [if_neg (by simpa using hbranch), hnone]
    rfl
  | again hbranch hsome hreached =>
    have hcontains : reached.contains demand.1 = true := by simpa using hreached
    rw [if_neg (by simpa using hbranch), hsome]
    change (if reached.contains demand.1 then _ else _ : StateM Reached GraphNode) reached = _
    rw [if_pos hcontains]
    rfl

theorem expand_opened {branch : List String} {reached : Reached} {demand : Demand} {p : Process}
    (hbranch : demand.1 ∉ branch) (hsome : doc.process? demand.1 = some p)
    (hreached : demand.1 ∉ reached) (depth : Nat) :
    expand doc statuses (depth + 1) branch demand.1 demand.2 reached =
      let (children, after) := (p.dependsOn.mapM fun d =>
        expand doc statuses depth (demand.1 :: branch) d.name (some d.condition.tag))
          (demand.1 :: reached)
      (.node (unmarked statuses demand) children, after) := by
  rw [expand]
  dsimp only
  rw [if_neg (by simpa using hbranch), hsome]
  change (if reached.contains demand.1 then _ else _ : StateM Reached GraphNode) reached = _
  rw [if_neg (by simpa using hreached)]
  rfl

private theorem mapM_unfolds {branch : List String} {below : Dependency → StateM Reached GraphNode}
    (hbelow : ∀ d reached, Unfolds doc statuses branch reached [(d.name, some d.condition.tag)]
      [(below d reached).1] (below d reached).2) (dependencies : List Dependency) :
    ∀ reached, Unfolds doc statuses branch reached
      (dependencies.map fun d => (d.name, some d.condition.tag))
      (dependencies.mapM below reached).1 (dependencies.mapM below reached).2 := by
  induction dependencies with
  | nil => exact fun _ => .nil
  | cons d dependencies ih =>
    intro reached
    rw [List.mapM_cons]
    exact (hbelow d reached).append (ih (below d reached).2)

/-- The depth that is left suffices below a branch, so the rules are followed. -/
theorem expand_unfolds (depth : Nat) :
    ∀ (branch : List String) (demand : Demand) (reached : Reached),
      IsBranch doc branch → doc.processes.length ≤ depth + branch.length →
      Unfolds doc statuses branch reached [demand]
        [(expand doc statuses depth branch demand.1 demand.2 reached).1]
        (expand doc statuses depth branch demand.1 demand.2 reached).2 := by
  induction depth with
  | zero =>
    intro branch demand reached hbranch hdepth
    obtain ⟨occurrence, hleaf⟩ | ⟨hfresh, -, p, hsome⟩ :=
      leaf_or_opened doc statuses branch reached demand
    · rw [expand_leaf hleaf]
      exact .leaf hleaf .nil
    · -- One more name on the branch would be one more than there are processes.
      have hlonger := (hbranch.cons hfresh (Document.isDeclared_of_process? hsome)).length_le
      rw [List.length_cons] at hlonger
      omega
  | succ depth ih =>
    intro branch demand reached hbranch hdepth
    obtain ⟨occurrence, hleaf⟩ | ⟨hfresh, hreached, p, hsome⟩ :=
      leaf_or_opened doc statuses branch reached demand
    · rw [expand_leaf hleaf]
      exact .leaf hleaf .nil
    · rw [expand_opened hfresh hsome hreached]
      have hopened := hbranch.cons hfresh (Document.isDeclared_of_process? hsome)
      refine .opened hfresh hsome hreached ?_ .nil
      have hdepth : doc.processes.length ≤ depth + (demand.1 :: branch).length := by
        rw [List.length_cons]
        omega
      exact mapM_unfolds
        (fun d reached => ih _ (d.name, some d.condition.tag) reached hopened hdepth) p.dependsOn
        (demand.1 :: reached)

theorem expandRoot_unfolds (doc : Document) (statuses : Statuses) (name : String)
    (reached : Reached) :
    Unfolds doc statuses [] reached [(name, none)] [(expandRoot doc statuses name reached).1]
      (expandRoot doc statuses name reached).2 :=
  expand_unfolds doc.processes.length [] (name, none) reached .nil (Nat.le_refl _)

theorem expandRoots_reached {name : String} {reached : Reached} (h : name ∈ reached)
    (names : List String) :
    expandRoots doc statuses (name :: names) reached = expandRoots doc statuses names reached := by
  have hcontains : reached.contains name = true := by simpa using h
  rw [expandRoots]
  change (if reached.contains name then _ else _ : StateM Reached (List GraphNode)) reached = _
  rw [if_pos hcontains]

theorem expandRoots_fresh {name : String} {reached : Reached} (h : name ∉ reached)
    (names : List String) :
    expandRoots doc statuses (name :: names) reached =
      let mid := (expandRoot doc statuses name reached).2
      ((expandRoot doc statuses name reached).1 :: (expandRoots doc statuses names mid).1,
        (expandRoots doc statuses names mid).2) := by
  rw [expandRoots]
  change (if reached.contains name then _ else _ : StateM Reached (List GraphNode)) reached = _
  rw [if_neg (by simpa using h)]
  rfl

/-- Roots unfold as if each of them had been asked for by its name. -/
theorem expandRoots_unfolds (names : List String) :
    ∀ reached, Unfolds doc statuses [] reached
      ((expandRoots doc statuses names reached).1.map GraphNode.demand)
      (expandRoots doc statuses names reached).1 (expandRoots doc statuses names reached).2 := by
  induction names with
  | nil => exact fun _ => .nil
  | cons name names ih =>
    intro reached
    by_cases hreached : name ∈ reached
    · rw [expandRoots_reached hreached]
      exact ih reached
    · rw [expandRoots_fresh hreached]
      exact (expandRoot_unfolds doc statuses name reached).of_nodes.append (ih _)

/-- All roots of a graph are asked for one after the other. -/
def IsUnfolded (doc : Document) (statuses : Statuses) (graph : Graph) (reached : Reached) : Prop :=
  Unfolds doc statuses [] [] (graph.roots.map GraphNode.demand) graph.roots reached

theorem ofDocument_isUnfolded (doc : Document) (statuses : Statuses) :
    ∃ reached, IsUnfolded doc statuses (ofDocument doc statuses) reached :=
  ⟨_, expandRoots_unfolds _ []⟩

theorem ofProcess?_isUnfolded {name : String} {graph : Graph}
    (h : ofProcess? doc statuses name = some graph) :
    ∃ reached, IsUnfolded doc statuses graph reached := by
  obtain ⟨p, -, rfl⟩ := Option.map_eq_some_iff.mp h
  exact ⟨_, (expandRoot_unfolds doc statuses p.name []).of_nodes⟩

end Graph

/-- A process of which only its name and what it waits for are given. -/
def Process.waiting (name : String) (needs : List String) : Process :=
  { Process.named name with dependsOn := needs.map fun need => ⟨need, .started⟩ }

/-- Two processes that wait for each other, two that wait for themselves, and a name that two wait
for and none has. -/
def Document.tangled : Document where
  path := "tangled.yaml"
  version := ""
  envFiles := []
  text := ""
  sourceMap := ⟨[]⟩
  processes := [.waiting "loop" ["loop"], .waiting "web" ["api", "db"],
    .waiting "api" ["db", "web", "ghost"], .waiting "db" ["ghost", "db"], .waiting "job" ["api"],
    .waiting "idle" []]

end ProcessLint
