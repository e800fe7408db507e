import Mathlib.Data.List.Nodup
import ProcessLint.Document.Basic

/-!
Processes looked up by name. Where names are not repeated, each process is the one that is found
under its name.
-/
namespace ProcessLint.Document

variable {doc : Document} {name : String} {p : Process}

/-- A process of this name is declared. -/
def IsDeclared (doc : Document) (name : String) : Prop := name ∈ doc.processes.map (·.name)

/-- The process of this name waits for others. -/
def Waits (doc : Document) (name : String) : Prop :=
  ∃ p ∈ doc.processes, p.name = name ∧ p.dependsOn ≠ []

theorem isDeclared_of_mem (h : p ∈ doc.processes) : doc.IsDeclared p.name :=
  List.mem_map_of_mem h

theorem mem_of_process? (h : doc.process? name = some p) : p ∈ doc.processes ∧ p.name = name := by
  have hname := List.find?_some h
  exact ⟨List.mem_of_find?_eq_some h, by simpa using hname⟩

theorem isDeclared_of_process? (h : doc.process? name = some p) : doc.IsDeclared name := by
  obtain ⟨hmem, rfl⟩ := mem_of_process? h
  exact isDeclared_of_mem hmem

theorem isDeclared_of_waits (h : doc.Waits name) : doc.IsDeclared name := by
  obtain ⟨p, hmem, rfl, -⟩ := h
  exact isDeclared_of_mem hmem

theorem process?_eq_none : doc.process? name = none ↔ ¬ doc.IsDeclared name := by
  simp [process?, IsDeclared]

theorem exists_process?_of_isDeclared (h : doc.IsDeclared name) :
    ∃ p, doc.process? name = some p := by
  by_contra hnone
  push Not at hnone
  exact process?_eq_none.mp (Option.eq_none_iff_forall_ne_some.mpr hnone) h

theorem process?_eq_some (hnodup : (doc.processes.map (·.name)).Nodup) :
    doc.process? name = some p ↔ p ∈ doc.processes ∧ p.name = name := by
  refine ⟨mem_of_process?, ?_⟩
  rintro ⟨hmem, rfl⟩
  obtain ⟨q, hq⟩ := exists_process?_of_isDeclared (isDeclared_of_mem hmem)
  obtain ⟨hqmem, hqname⟩ := mem_of_process? hq
  rw [hq, List.inj_on_of_nodup_map hnodup hqmem hmem hqname]

theorem waits_iff (hnodup : (doc.processes.map (·.name)).Nodup) (h : doc.process? name = some p) :
    doc.Waits name ↔ p.dependsOn ≠ [] := by
  obtain ⟨hmem, hname⟩ := mem_of_process? h
  constructor
  · rintro ⟨q, hq, hqname, hwaits⟩
    cases h.symm.trans ((process?_eq_some hnodup).mpr ⟨hq, hqname⟩)
    exact hwaits
  · exact fun hwaits => ⟨p, hmem, hname, hwaits⟩

end ProcessLint.Document
