import Mathlib.Algebra.GroupWithZero.Nat
import ProcessLint.Proofs.Graph.Marks
import ProcessLint.Proofs.Graph.Roots

/-!
How large a graph is. A process is opened once, and every node but the roots is a dependency of a
process that is opened, so there are as many nodes as roots and dependencies.
-/
namespace ProcessLint

namespace Document

/-- How many dependencies the process of this name has. -/
def needs (doc : Document) (name : String) : Nat :=
  ((doc.process? name).map (·.dependsOn.length)).getD 0

theorem needs_eq {doc : Document} {name : String} {p : Process}
    (h : doc.process? name = some p) : doc.needs name = p.dependsOn.length := by
  rw [needs, h, Option.map_some, Option.getD_some]

end Document

namespace Graph

open GraphNode

variable {doc : Document} {statuses : Statuses}

namespace Unfolds

variable {branch : List String} {reached after : Reached} {demands : List Demand}
  {nodes : List GraphNode}

theorem nodup (h : Unfolds doc statuses branch reached demands nodes after) :
    reached.Nodup → after.Nodup := by
  induction h with
  | nil => exact id
  | leaf _ _ ih => exact ih
  | opened _ _ hreached _ _ ihchildren ih =>
    exact fun hnodup => ih (ihchildren (List.nodup_cons.mpr ⟨hreached, hnodup⟩))

/-- What is opened is shown. -/
theorem exists_place (h : Unfolds doc statuses branch reached demands nodes after) :
    ∀ name ∈ after, name ∈ reached ∨ ∃ place ∈ placesBelow branch nodes, place.name = name := by
  induction h with
  | nil => exact fun name hname => .inl hname
  | leaf _ _ ih =>
    intro name hname
    refine (ih name hname).imp_right ?_
    rintro ⟨place, hplace, rfl⟩
    exact ⟨place, List.mem_append_right _ hplace, rfl⟩
  | @opened branch reached below after demand demands children nodes p _ _ _ _ _ ihchildren ih =>
    intro name hname
    rcases ih name hname with hbelow | ⟨place, hplace, rfl⟩
    · rcases ihchildren name hbelow with hreached | ⟨place, hplace, rfl⟩
      · rcases List.mem_cons.mp hreached with rfl | hreached
        · exact .inr ⟨⟨branch, .node (unmarked statuses demand) children⟩,
            List.mem_append_left _ (List.mem_cons_self ..), rfl⟩
        · exact .inl hreached
      · exact .inr ⟨place, List.mem_append_left _ (List.mem_cons_of_mem _ hplace), rfl⟩
    · exact .inr ⟨place, List.mem_append_right _ hplace, rfl⟩

/-- There is a node for each demand and for each dependency of what is opened meanwhile. -/
theorem length_places (h : Unfolds doc statuses branch reached demands nodes after) :
    (placesBelow branch nodes).length + (reached.map doc.needs).sum =
      demands.length + (after.map doc.needs).sum := by
  induction h with
  | nil => rfl
  | leaf _ _ ih =>
    rw [placesBelow_cons, List.length_cons, List.length_cons]
    change (placesBelow _ _).length + 1 + _ = _
    omega
  | @opened branch reached below after demand demands children nodes p _ hsome _ _ _ ihchildren
      ih =>
    rw [List.map_cons, List.sum_cons, Document.needs_eq hsome, Process.demands,
      List.length_map] at ihchildren
    rw [placesBelow_cons, List.length_cons, List.length_cons, List.length_append]
    change (placesBelow (demand.1 :: branch) children).length + _ + 1 + _ = _
    omega

end Unfolds

theorem sum_needs (hnodup : (doc.processes.map (·.name)).Nodup) :
    ((doc.processes.map (·.name)).map doc.needs).sum =
      (doc.processes.map (·.dependsOn.length)).sum := by
  rw [List.map_map]
  congr 1
  refine List.map_congr_left fun p hp => ?_
  exact Document.needs_eq ((Document.process?_eq_some hnodup).mpr ⟨hp, rfl⟩)

/-- Each process is opened once: it is shown, its dependencies stand below one node of its name and
no other, and the graph has as many nodes as roots and dependencies. -/
structure IsLinear (doc : Document) (graph : Graph) : Prop where
  shown : ∀ p ∈ doc.processes, ∃ place ∈ graph.places, place.name = p.name
  opened : ∀ p ∈ doc.processes, p.dependsOn ≠ [] → ∃ before place after,
    graph.places = before ++ place :: after ∧ place.name = p.name ∧ place.IsParent ∧
      place.node.dependsOn.map demand = p.demands ∧
      ∀ other ∈ before ++ after, other.name = p.name → ¬ other.IsParent
  length : graph.places.length =
    graph.roots.length + (doc.processes.map (·.dependsOn.length)).sum

section Linear

variable {graph : Graph} {reached : Reached}

/-- Of the nodes of a process just one has its dependencies below it. -/
theorem IsUnfolded.exists_parent {p : Process} (hnodup : (doc.processes.map (·.name)).Nodup)
    (h : IsUnfolded doc statuses graph reached) (hp : p ∈ doc.processes)
    (hwaits : p.dependsOn ≠ []) (hreached : p.name ∈ reached) :
    ∃ before place after, graph.places = before ++ place :: after ∧ place.name = p.name ∧
      place.IsParent ∧ place.node.dependsOn.map demand = p.demands ∧
      ∀ other ∈ before ++ after, other.name = p.name → ¬ other.IsParent := by
  have hrecords : Records doc graph.places reached := (h.areTruthful hnodup .nil .nil).2
  obtain ⟨place, hplace, hname, hparent⟩ :=
    (hrecords p.name).mpr ⟨hreached, p, hp, rfl, hwaits⟩
  obtain ⟨before, after, hsplit⟩ := List.append_of_mem hplace
  have htruthful := h.isTruthful hnodup hsplit
  obtain ⟨q, hq, hqname, hchildren⟩ :=
    htruthful.unmarked (htruthful.unmarked_of_isParent hparent)
  cases List.inj_on_of_nodup_map hnodup hq hp (hqname.trans hname)
  refine ⟨before, place, after, hsplit, hname, hparent, hchildren, fun other hother hsame => ?_⟩
  rcases List.mem_append.mp hother with hother | hother
  · exact fun hotherParent =>
      htruthful.not_isParent ⟨other, hother, hsame.trans hname.symm, hotherParent⟩ hparent
  · obtain ⟨mid, rest, rfl⟩ := List.append_of_mem hother
    rw [List.append_cons, ← List.append_assoc] at hsplit
    refine (h.isTruthful hnodup hsplit).not_isParent ⟨place, ?_, hname.trans hsame.symm, hparent⟩
    simp

theorem IsUnfolded.isLinear (hnodup : (doc.processes.map (·.name)).Nodup)
    (h : IsUnfolded doc statuses graph reached)
    (hreached : ∀ name, name ∈ reached ↔ doc.IsDeclared name) : IsLinear doc graph := by
  have hopened : ∀ p ∈ doc.processes, p.name ∈ reached :=
    fun p hp => (hreached p.name).mpr (Document.isDeclared_of_mem hp)
  refine ⟨fun p hp => ?_, fun p hp hwaits => ?_, ?_⟩
  · exact (h.exists_place p.name (hopened p hp)).resolve_left (List.not_mem_nil)
  · exact h.exists_parent hnodup hp hwaits (hopened p hp)
  · have hperm : reached.Perm (doc.processes.map (·.name)) :=
      (List.perm_ext_iff_of_nodup (h.nodup .nil) hnodup).mpr hreached
    have hlength := h.length_places
    rw [List.length_map, (hperm.map doc.needs).sum_nat, sum_needs hnodup] at hlength
    exact hlength

end Linear

/-- The rules without a bound on the depth come to an end, with the graph that is built and no
other, whatever the processes wait for. In it each process is opened once. -/
theorem ofDocument_isLinear (doc : Document) (statuses : Statuses)
    (hnodup : (doc.processes.map (·.name)).Nodup) :
    let graph := ofDocument doc statuses
    (∃ reached, ∀ nodes after, Unfolds doc statuses [] [] (graph.roots.map demand) nodes after ↔
      nodes = graph.roots ∧ after = reached) ∧ IsLinear doc graph := by
  obtain ⟨reached, later, hunfolded, -, hroots, hexplores⟩ := ofDocument_explores statuses hnodup
  refine ⟨⟨reached, fun nodes after => ⟨fun h => h.unique hunfolded, ?_⟩⟩, ?_⟩
  · rintro ⟨rfl, rfl⟩
    exact hunfolded
  · refine hunfolded.isLinear hnodup fun name => ?_
    rw [hexplores name, and_iff_left_of_imp (hroots.reach name)]

/-- Three roots and nine dependencies. -/
theorem ofDocument_isLinear_tangled :
    (ofDocument .tangled fun _ => none).places.length = 12 ∧
      IsLinear .tangled (ofDocument .tangled fun _ => none) :=
  ⟨rfl, (ofDocument_isLinear .tangled (fun _ => none) (by decide)).2⟩

end Graph

end ProcessLint
