import Mathlib.Logic.Relation
import ProcessLint.Proofs.Graph.Unfolding

/-!
Which processes are roots. What a forest opens is closed under the dependencies of all that is not
on the branch, so behind a whole root everything is opened that the roots up to it lead to. A name
is left out among the roots just when one of them leads to it.
-/
namespace ProcessLint

namespace Document

/-- The process of the first name waits for the second. -/
def DependsOn (doc : Document) (name other : String) : Prop :=
  ∃ p ∈ doc.processes, p.name = name ∧ ∃ d ∈ p.dependsOn, d.name = other

/-- From one name to another over dependencies of declared processes. -/
def Leads (doc : Document) : String → String → Prop := Relation.ReflTransGen doc.DependsOn

/-- Some process waits for this name. -/
def IsNeeded (doc : Document) (name : String) : Prop :=
  ∃ p ∈ doc.processes, ∃ d ∈ p.dependsOn, d.name = name

instance (doc : Document) : DecidablePred doc.IsNeeded :=
  fun name => inferInstanceAs (Decidable (∃ p ∈ doc.processes, ∃ d ∈ p.dependsOn, d.name = name))

variable {doc : Document} {name other : String}

theorem DependsOn.isDeclared (h : doc.DependsOn name other) : doc.IsDeclared name := by
  obtain ⟨p, hp, rfl, -⟩ := h
  exact isDeclared_of_mem hp

theorem DependsOn.isNeeded (h : doc.DependsOn name other) : doc.IsNeeded other := by
  obtain ⟨p, hp, -, hd⟩ := h
  exact ⟨p, hp, hd⟩

theorem dependsOn_iff {p : Process} (hnodup : (doc.processes.map (·.name)).Nodup)
    (h : doc.process? name = some p) :
    doc.DependsOn name other ↔ ∃ demand ∈ p.demands, demand.1 = other := by
  obtain ⟨hmem, hname⟩ := mem_of_process? h
  simp only [Process.demands, List.mem_map, exists_exists_and_eq_and]
  constructor
  · rintro ⟨q, hq, hqname, hd⟩
    cases h.symm.trans ((process?_eq_some hnodup).mpr ⟨hq, hqname⟩)
    exact hd
  · exact fun hd => ⟨p, hmem, hname, hd⟩

/-- To what nobody waits for, nothing leads but itself. -/
theorem Leads.eq_of_not_isNeeded (h : doc.Leads name other) (hother : ¬ doc.IsNeeded other) :
    name = other := by
  rcases h.cases_tail with rfl | ⟨mid, -, hmid⟩
  · rfl
  · exact absurd hmid.isNeeded hother

end Document

namespace Graph

variable {doc : Document} {statuses : Statuses}

theorem independent_eq (doc : Document) :
    independent doc = (doc.processes.map (·.name)).filter fun name => ¬ doc.IsNeeded name := by
  unfold independent
  refine List.filter_congr fun name _ => ?_
  rw [Bool.eq_iff_iff]
  simp [Document.IsNeeded]

/-- What waits in an opened process is opened too, unless the process is still on the branch. -/
def IsClosed (doc : Document) (branch : List String) (reached : Reached) : Prop :=
  ∀ name ∈ reached, name ∉ branch → ∀ other, doc.DependsOn name other → doc.IsDeclared other →
    other ∈ reached

namespace Unfolds

variable {branch : List String} {reached after : Reached} {demands : List Demand}
  {nodes : List GraphNode}

theorem subset (h : Unfolds doc statuses branch reached demands nodes after) :
    reached ⊆ after := by
  induction h with
  | nil => exact List.Subset.refl _
  | leaf _ _ ih => exact ih
  | opened _ _ _ _ _ ihchildren ih =>
    exact fun name hname => ih (ihchildren (List.mem_cons_of_mem _ hname))

/-- Each demand for a process opens it, unless it is opened already. -/
theorem mem_of_demand (h : Unfolds doc statuses branch reached demands nodes after) :
    branch ⊆ reached → ∀ demand ∈ demands, doc.IsDeclared demand.1 → demand.1 ∈ after := by
  induction h with
  | nil => simp
  | leaf hleaf hrest ih =>
    intro hbranch
    refine List.forall_mem_cons.mpr ⟨fun hdeclared => hrest.subset ?_, ih hbranch⟩
    cases hleaf with
    | cycle hname => exact hbranch hname
    | missing _ hnone => exact absurd hdeclared (Document.process?_eq_none.mp hnone)
    | again _ _ hreached => exact hreached
  | opened _ _ _ hchildren hrest _ ih =>
    intro hbranch
    have hopened := hrest.subset (hchildren.subset (List.mem_cons_self ..))
    refine List.forall_mem_cons.mpr ⟨fun _ => hopened, ih ?_⟩
    exact fun name hname => hchildren.subset (List.mem_cons_of_mem _ (hbranch hname))

/-- What is opened is a process that a demand leads to. -/
theorem leads_of_mem (hnodup : (doc.processes.map (·.name)).Nodup)
    (h : Unfolds doc statuses branch reached demands nodes after) :
    ∀ name ∈ after, name ∈ reached ∨
      doc.IsDeclared name ∧ ∃ demand ∈ demands, doc.Leads demand.1 name := by
  induction h with
  | nil => exact fun name hname => .inl hname
  | leaf _ _ ih =>
    intro name hname
    refine (ih name hname).imp_right ?_
    rintro ⟨hdeclared, demand, hdemand, hleads⟩
    exact ⟨hdeclared, demand, List.mem_cons_of_mem _ hdemand, hleads⟩
  | @opened branch reached below after demand demands children nodes p _ hsome _ _ _ ihchildren
      ih =>
    intro name hname
    rcases ih name hname with hbelow | ⟨hdeclared, other, hother, hleads⟩
    · rcases ihchildren name hbelow with hreached | ⟨hdeclared, child, hchild, hleads⟩
      · rcases List.mem_cons.mp hreached with rfl | hreached
        · exact .inr ⟨Document.isDeclared_of_process? hsome, demand, List.mem_cons_self .., .refl⟩
        · exact .inl hreached
      · have hstep := (Document.dependsOn_iff hnodup hsome).mpr ⟨child, hchild, rfl⟩
        exact .inr ⟨hdeclared, demand, List.mem_cons_self .., hleads.head hstep⟩
    · exact .inr ⟨hdeclared, other, List.mem_cons_of_mem _ hother, hleads⟩

theorem isClosed (hnodup : (doc.processes.map (·.name)).Nodup)
    (h : Unfolds doc statuses branch reached demands nodes after) :
    branch ⊆ reached → IsClosed doc branch reached → IsClosed doc branch after := by
  induction h with
  | nil => exact fun _ hclosed => hclosed
  | leaf _ _ ih => exact ih
  | @opened branch reached below after demand demands children nodes p hname hsome hreached
      hchildren _ ihchildren ih =>
    intro hbranch hclosed
    have hopened : demand.1 :: branch ⊆ demand.1 :: reached := List.cons_subset_cons _ hbranch
    have hbelow : IsClosed doc (demand.1 :: branch) below := by
      refine ihchildren hopened fun name hname hoff other hother hdeclared => ?_
      simp only [List.mem_cons, not_or] at hname hoff
      exact List.mem_cons_of_mem _
        (hclosed name (hname.resolve_left hoff.1) hoff.2 other hother hdeclared)
    refine ih (fun name hname => hchildren.subset (List.mem_cons_of_mem _ (hbranch hname))) ?_
    intro name hname hoff other hother hdeclared
    by_cases heq : name = demand.1
    · -- All that the opened process waits for has been asked for below it.
      rw [heq] at hother
      obtain ⟨child, hchild, rfl⟩ := (Document.dependsOn_iff hnodup hsome).mp hother
      exact hchildren.mem_of_demand hopened child hchild hdeclared
    · exact hbelow name hname (by simp [heq, hoff]) other hother hdeclared

end Unfolds

/-- Opened is what the roots lead to. -/
def Explores (doc : Document) (roots : List String) (reached : Reached) : Prop :=
  ∀ name, name ∈ reached ↔ doc.IsDeclared name ∧ ∃ root ∈ roots, doc.Leads root name

namespace Explores

variable {roots : List String} {reached after : Reached} {demands : List Demand}
  {nodes : List GraphNode}

theorem isClosed (h : Explores doc roots reached) : IsClosed doc [] reached := by
  intro name hname _ other hother hdeclared
  obtain ⟨-, root, hroot, hleads⟩ := (h name).mp hname
  exact (h other).mpr ⟨hdeclared, root, hroot, hleads.tail hother⟩

theorem append (hnodup : (doc.processes.map (·.name)).Nodup) (h : Explores doc roots reached)
    (hunfolds : Unfolds doc statuses [] reached demands nodes after) :
    Explores doc (roots ++ demands.map (·.1)) after := by
  have hclosed := hunfolds.isClosed hnodup (List.nil_subset _) h.isClosed
  intro name
  constructor
  · intro hname
    rcases hunfolds.leads_of_mem hnodup name hname with
      hreached | ⟨hdeclared, demand, hdemand, hleads⟩
    · obtain ⟨hdeclared, root, hroot, hleads⟩ := (h name).mp hreached
      exact ⟨hdeclared, root, List.mem_append_left _ hroot, hleads⟩
    · exact ⟨hdeclared, demand.1, List.mem_append_right _ (List.mem_map_of_mem hdemand), hleads⟩
  · rintro ⟨hdeclared, root, hroot, hleads⟩
    rcases List.mem_append.mp hroot with hroot | hroot
    · exact hunfolds.subset ((h name).mpr ⟨hdeclared, root, hroot, hleads⟩)
    · obtain ⟨demand, hdemand, rfl⟩ := List.mem_map.mp hroot
      -- Whatever lies on the way has dependencies, so it is declared.
      induction hleads with
      | refl => exact hunfolds.mem_of_demand (List.nil_subset _) demand hdemand hdeclared
      | tail _ hstep ih => exact hclosed _ (ih hstep.isDeclared) (by simp) _ hstep hdeclared

end Explores

/-- Of names taken in order, those that no root before leads to. -/
inductive Uncovered (doc : Document) : List String → List String → List String → Prop
  | nil {before : List String} : Uncovered doc before [] []
  | covered {before names roots : List String} {name root : String} (hroot : root ∈ before)
      (hleads : doc.Leads root name) (hrest : Uncovered doc before names roots) :
      Uncovered doc before (name :: names) roots
  | root {before names roots : List String} {name : String}
      (hnone : ∀ root ∈ before, ¬ doc.Leads root name)
      (hrest : Uncovered doc (before ++ [name]) names roots) :
      Uncovered doc before (name :: names) (name :: roots)

namespace Uncovered

variable {before names more roots : List String}

theorem sublist (h : Uncovered doc before names roots) : roots.Sublist names := by
  induction h with
  | nil => exact .slnil
  | covered _ _ _ ih => exact ih.cons _
  | root _ _ ih => exact ih.cons_cons _

theorem of_append : ∀ {before roots : List String}, Uncovered doc before (names ++ more) roots →
    ∃ first later, roots = first ++ later ∧ Uncovered doc before names first ∧
      Uncovered doc (before ++ first) more later := by
  induction names with
  | nil =>
    intro before roots h
    exact ⟨[], roots, rfl, .nil, by rwa [List.append_nil]⟩
  | cons name names ih =>
    intro before roots h
    cases h with
    | covered hroot hleads hrest =>
      obtain ⟨first, later, rfl, hfirst, hlater⟩ := ih hrest
      exact ⟨first, later, rfl, .covered hroot hleads hfirst, hlater⟩
    | root hnone hrest =>
      obtain ⟨first, later, rfl, hfirst, hlater⟩ := ih hrest
      rw [List.append_assoc] at hlater
      exact ⟨name :: first, later, rfl, .root hnone hfirst, hlater⟩

/-- Names that nobody waits for are all roots. -/
theorem eq_of_not_isNeeded (h : Uncovered doc before names roots) :
    (before ++ names).Nodup → (∀ name ∈ names, ¬ doc.IsNeeded name) → roots = names := by
  induction h with
  | nil => exact fun _ _ => rfl
  | @covered before names roots name root hroot hleads _ _ =>
    intro hnodup hnames
    have heq := hleads.eq_of_not_isNeeded (hnames name (List.mem_cons_self ..))
    exact absurd heq ((List.nodup_append.mp hnodup).2.2 root hroot name (List.mem_cons_self ..))
  | root _ _ ih =>
    intro hnodup hnames
    rw [List.append_cons] at hnodup
    rw [ih hnodup fun name hname => hnames name (List.mem_cons_of_mem _ hname)]

/-- A name is left out just when a root that comes before it leads to it. -/
theorem mem_iff (h : Uncovered doc before names roots) (hnodup : names.Nodup) :
    ∀ earlier name later, names = earlier ++ name :: later →
      (name ∈ roots ↔ ∀ root, root ∈ before ∨ root ∈ roots ∧ root ∈ earlier →
        ¬ doc.Leads root name) := by
  induction h with
  | nil => simp
  | @covered before names roots head root hroot hleads hrest ih =>
    intro earlier name later hsplit
    obtain ⟨hhead, hnodup⟩ := List.nodup_cons.mp hnodup
    have hskip : head ∉ roots := fun hmem => hhead (hrest.sublist.subset hmem)
    cases earlier with
    | nil =>
      cases hsplit
      exact iff_of_false hskip fun hnone => hnone root (.inl hroot) hleads
    | cons first earlier =>
      cases hsplit
      rw [ih hnodup earlier name later rfl]
      refine forall_congr' fun other => imp_congr_left (or_congr_right (and_congr_right ?_))
      intro hother
      have hne : other ≠ head := fun heq => hskip (heq ▸ hother)
      simp [hne]
  | @root before names roots head hnone hrest ih =>
    intro earlier name later hsplit
    obtain ⟨hhead, hnodup⟩ := List.nodup_cons.mp hnodup
    cases earlier with
    | nil =>
      cases hsplit
      refine iff_of_true (List.mem_cons_self ..) ?_
      rintro root (hroot | ⟨-, hroot⟩)
      · exact hnone root hroot
      · cases hroot
    | cons first earlier =>
      cases hsplit
      have hne : name ≠ head := fun heq => hhead (by simp [heq])
      rw [List.mem_cons, or_iff_right hne, ih hnodup earlier name later rfl]
      refine forall_congr' fun other => imp_congr_left ?_
      by_cases hother : other = head <;> simp [hother]

end Uncovered

/-- Names that are taken as roots are those that no root before leads to, and what is opened
behind them is what all of them lead to. -/
theorem expandRoots_uncovered (statuses : Statuses)
    (hnodup : (doc.processes.map (·.name)).Nodup) (names : List String) :
    ∀ {before : List String} {reached : Reached}, (∀ name ∈ names, doc.IsDeclared name) →
      Explores doc before reached →
      Uncovered doc before names ((expandRoots doc statuses names reached).1.map GraphNode.name) ∧
        Explores doc (before ++ (expandRoots doc statuses names reached).1.map GraphNode.name)
          (expandRoots doc statuses names reached).2 := by
  induction names with
  | nil =>
    intro before reached _ hexplores
    refine ⟨.nil, ?_⟩
    change Explores doc (before ++ []) reached
    rwa [List.append_nil]
  | cons name names ih =>
    intro before reached hdeclared hexplores
    obtain ⟨hname, hnames⟩ := List.forall_mem_cons.mp hdeclared
    by_cases hreached : name ∈ reached
    · rw [expandRoots_reached hreached]
      obtain ⟨-, root, hroot, hleads⟩ := (hexplores name).mp hreached
      obtain ⟨hrest, hafter⟩ := ih hnames hexplores
      exact ⟨.covered hroot hleads hrest, hafter⟩
    · have hunfolds := expandRoot_unfolds doc statuses name reached
      have hdemand := hunfolds.map_demand
      have hroot : (expandRoot doc statuses name reached).1.name = name :=
        congrArg Prod.fst (List.cons.inj hdemand).1
      obtain ⟨hrest, hafter⟩ := ih hnames (hexplores.append hnodup hunfolds)
      have hnone : ∀ root ∈ before, ¬ doc.Leads root name :=
        fun root hroot hleads => hreached ((hexplores name).mpr ⟨hname, root, hroot, hleads⟩)
      rw [expandRoots_fresh hreached, List.map_cons, hroot]
      refine ⟨.root hnone hrest, ?_⟩
      rwa [List.append_assoc] at hafter

/-- The roots of a document: those that nobody waits for first, then each that no root before leads
to, all in the order of declaration. -/
structure AreRoots (doc : Document) (first later : List String) : Prop where
  first_eq : first = (doc.processes.map (·.name)).filter fun name => ¬ doc.IsNeeded name
  sublist : later.Sublist ((doc.processes.map (·.name)).filter fun name => doc.IsNeeded name)
  mem_iff : ∀ earlier name following, doc.processes.map (·.name) = earlier ++ name :: following →
    (name ∈ later ↔ ∀ root, root ∈ first ∨ root ∈ later ∧ root ∈ earlier → ¬ doc.Leads root name)
  nodup : (first ++ later).Nodup
  reach : ∀ name, doc.IsDeclared name → ∃ root ∈ first ++ later, doc.Leads root name

theorem areRoots_of_uncovered {later : List String} (hnodup : (doc.processes.map (·.name)).Nodup)
    (h : Uncovered doc (independent doc) (doc.processes.map (·.name)) later) :
    AreRoots doc (independent doc) later := by
  have hmem := h.mem_iff hnodup
  have hfirst := independent_eq doc
  have hneeded : ∀ name ∈ later, doc.IsNeeded name := by
    intro name hname
    by_contra hfree
    have hdeclared := h.sublist.subset hname
    obtain ⟨earlier, following, hsplit⟩ := List.append_of_mem hdeclared
    have hindependent : name ∈ independent doc := by simp [hfirst, hfree, hdeclared]
    exact (hmem earlier name following hsplit).mp hname name (.inl hindependent) .refl
  refine ⟨hfirst, ?_, hmem, ?_, ?_⟩
  · rw [← List.filter_eq_self.mpr fun name hname => decide_eq_true (hneeded name hname)]
    exact h.sublist.filter _
  · refine List.nodup_append.mpr ⟨hfirst ▸ hnodup.filter _, hnodup.sublist h.sublist, ?_⟩
    rintro name hname _ hlater rfl
    rw [hfirst] at hname
    simp [hneeded name hlater] at hname
  · intro name hdeclared
    by_contra hunreached
    push Not at hunreached
    obtain ⟨earlier, following, hsplit⟩ := List.append_of_mem hdeclared
    have hlater : name ∈ later := by
      refine (hmem earlier name following hsplit).mpr fun root hroot => hunreached root ?_
      exact List.mem_append.mpr (hroot.imp_right And.left)
    exact hunreached name (List.mem_append_right _ hlater) .refl

theorem ofDocument_explores (statuses : Statuses) (hnodup : (doc.processes.map (·.name)).Nodup) :
    ∃ reached later, IsUnfolded doc statuses (ofDocument doc statuses) reached ∧
      (ofDocument doc statuses).roots.map GraphNode.name = independent doc ++ later ∧
      AreRoots doc (independent doc) later ∧ Explores doc (independent doc ++ later) reached := by
  have hfirst := independent_eq doc
  have hdeclared : ∀ name ∈ independent doc ++ doc.processes.map (·.name), doc.IsDeclared name := by
    intro name hname
    rcases List.mem_append.mp hname with hname | hname
    · rw [hfirst] at hname
      exact List.mem_of_mem_filter hname
    · exact hname
  have hnothing : Explores doc [] [] := by simp [Explores]
  obtain ⟨huncovered, hexplores⟩ :=
    expandRoots_uncovered statuses hnodup _ hdeclared hnothing
  obtain ⟨first, later, hroots, hindependent, hlater⟩ := huncovered.of_append
  have hall : first = independent doc := by
    refine hindependent.eq_of_not_isNeeded ?_ ?_
    · exact hfirst ▸ hnodup.filter _
    · simp [hfirst]
  subst hall
  refine ⟨_, later, expandRoots_unfolds _ [], hroots, areRoots_of_uncovered hnodup hlater, ?_⟩
  rw [hroots] at hexplores
  exact hexplores

/-- The roots of a graph are different processes: all that nobody waits for, then those of the
others that no root before leads to, in the order of declaration. So a root leads to every
process. -/
theorem ofDocument_roots (doc : Document) (statuses : Statuses)
    (hnodup : (doc.processes.map (·.name)).Nodup) :
    ∃ first later, (ofDocument doc statuses).roots.map GraphNode.name = first ++ later ∧
      AreRoots doc first later := by
  obtain ⟨-, later, -, hroots, hareRoots, -⟩ := ofDocument_explores statuses hnodup
  exact ⟨_, later, hroots, hareRoots⟩

/-- Nobody waits for the first two roots. The last one only waits for itself, and though it is
declared before them, it is a root because neither leads to it. -/
theorem ofDocument_roots_tangled :
    (ofDocument .tangled fun _ => none).roots.map GraphNode.name = ["job", "idle", "loop"] ∧
      ∃ first later, ["job", "idle", "loop"] = first ++ later ∧ AreRoots .tangled first later :=
  ⟨rfl, ofDocument_roots .tangled (fun _ => none) (by decide)⟩

end Graph

end ProcessLint
