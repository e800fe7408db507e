import Mathlib.Data.List.Forall2
import ProcessLint.Proofs.Rule.Findings

/-!
Reports put together from parts: each item of a list gives a part, and the parts stand in the order
of the items. Most parts are a single violation if something is amiss with the item, and nothing
otherwise. A violation stands at the field that is amiss, or else at its process.
-/
namespace ProcessLint

/-- Where a field of a process stands, as far as the text shows it. -/
inductive Document.StandsAt (doc : Document) (process : String) (field : List String) :
    Position → Prop
  | field {position : Position} :
      doc.sourceMap.get? ("processes" :: process :: field) = some position →
      StandsAt doc process field position
  | process {position : Position} :
      doc.sourceMap.get? ("processes" :: process :: field) = none →
      doc.sourceMap.get? ["processes", process] = some position →
      StandsAt doc process field position
  | nowhere : doc.sourceMap.get? ("processes" :: process :: field) = none →
      doc.sourceMap.get? ["processes", process] = none → StandsAt doc process field .unknown

theorem Document.standsAt_positionOf (doc : Document) (process : String) (field : List String) :
    doc.StandsAt process field (doc.positionOf process field) := by
  unfold positionOf
  cases hfield : doc.sourceMap.get? ("processes" :: process :: field) with
  | some position => exact .field hfield
  | none =>
    cases hprocess : doc.sourceMap.get? ["processes", process] with
    | some position => exact .process hfield hprocess
    | none => exact .nowhere hfield hprocess

/-- One violation that tells what is amiss, and none if nothing is. -/
structure OneIf (amiss : Prop) (tells : Violation → Prop) (report : List Violation) : Prop where
  found : amiss → ∃ v, tells v ∧ report = [v]
  silent : ¬ amiss → report = []

/-- Every item gives its own part of the report, and the parts follow each other like the items. -/
def PartByPart {α : Type} (items : List α) (gives : α → List Violation → Prop)
    (report : List Violation) : Prop :=
  ∃ parts, List.Forall₂ gives items parts ∧ report = parts.flatten

namespace OneIf

variable {amiss : Prop} {tells : Violation → Prop} {report : List Violation} {v : Violation}

theorem one (h : amiss) (hv : tells v) : OneIf amiss tells [v] :=
  ⟨fun _ => ⟨v, hv, rfl⟩, fun hnot => absurd h hnot⟩

theorem none (h : ¬ amiss) : OneIf amiss tells [] :=
  ⟨fun hamiss => absurd hamiss h, fun _ => rfl⟩

theorem of_iff {other : Prop} (h : OneIf amiss tells report) (hiff : other ↔ amiss) :
    OneIf other tells report :=
  ⟨fun hother => h.found (hiff.mp hother), fun hnot => h.silent (mt hiff.mpr hnot)⟩

theorem eq_nil_iff (h : OneIf amiss tells report) : report = [] ↔ ¬ amiss := by
  refine ⟨?_, h.silent⟩
  rintro hnil hamiss
  obtain ⟨v, -, hv⟩ := h.found hamiss
  exact List.cons_ne_nil v [] (hv.symm.trans hnil)

end OneIf

namespace PartByPart

variable {α : Type} {items : List α} {gives : α → List Violation → Prop} {report : List Violation}

theorem flatMap {f : α → List Violation} (h : ∀ item ∈ items, gives item (f item)) :
    PartByPart items gives (items.flatMap f) := by
  refine ⟨items.map f, ?_, List.flatMap_def⟩
  rw [List.forall₂_map_right_iff, List.forall₂_same]
  exact h

theorem filterMap {f : α → Option Violation} (h : ∀ item ∈ items, gives item (f item).toList) :
    PartByPart items gives (items.filterMap f) := by
  rw [List.filterMap_eq_flatMap_toList]
  exact flatMap h

theorem map {f : α → Violation} (h : ∀ item ∈ items, gives item [f item]) :
    PartByPart items gives (items.map f) := by
  rw [← List.filterMap_eq_map]
  exact filterMap h

theorem silent (h : ∀ item ∈ items, gives item []) : PartByPart items gives [] := by
  have hreport := flatMap h
  rwa [List.flatMap_eq_nil_iff.mpr fun _ _ => rfl] at hreport

/-- Items that are passed over give nothing. -/
theorem of_filter {keep : α → Bool} (h : PartByPart (items.filter keep) gives report)
    (hdrop : ∀ item ∈ items, keep item = false → gives item []) :
    PartByPart items gives report := by
  induction items generalizing report with
  | nil => exact h
  | cons item items ih =>
    obtain ⟨hitem, hitems⟩ := List.forall_mem_cons.mp hdrop
    by_cases hkeep : keep item = true
    · rw [List.filter_cons_of_pos hkeep] at h
      obtain ⟨parts, hparts, rfl⟩ := h
      obtain ⟨part, others, hpart, hothers, rfl⟩ := List.forall₂_cons_left_iff.mp hparts
      obtain ⟨rest, hrest, hflat⟩ := ih ⟨others, hothers, rfl⟩ hitems
      exact ⟨part :: rest, .cons hpart hrest, by rw [List.flatten_cons, List.flatten_cons, hflat]⟩
    · rw [List.filter_cons_of_neg hkeep] at h
      obtain ⟨parts, hparts, rfl⟩ := ih h hitems
      exact ⟨[] :: parts, .cons (hitem (by simpa using hkeep)) hparts, rfl⟩

/-- Disabled processes are passed over by the rules on conventions. -/
theorem of_enabled {doc : Document} {gives : Process → List Violation → Prop}
    (h : PartByPart doc.enabled gives report)
    (hdisabled : ∀ p ∈ doc.processes, p.disabled = true → gives p []) :
    PartByPart doc.processes gives report :=
  of_filter h fun p hp hkeep => hdisabled p hp (by simpa [Process.isEnabled] using hkeep)

/-- The report is empty just if no item gives anything. -/
theorem eq_nil_iff {sound : α → Prop} (h : PartByPart items gives report)
    (hsound : ∀ item part, gives item part → (part = [] ↔ sound item)) :
    report = [] ↔ ∀ item ∈ items, sound item := by
  obtain ⟨parts, hparts, rfl⟩ := h
  induction hparts with
  | nil => simp
  | @cons item part items parts hpart _ ih =>
    rw [List.flatten_cons, List.append_eq_nil_iff, List.forall_mem_cons, hsound item part hpart, ih]

end PartByPart

theorem Document.disabled_of_mem_enabled {doc : Document} {p : Process} (h : p ∈ doc.enabled) :
    p.disabled = false := by
  simpa [Process.isEnabled] using (List.mem_filter.mp h).2

/-- A rule without a fix reports its findings as they are. -/
theorem Rule.check_eq_findings {rule : Rule} (h : rule.isFixable = false) (doc : Document) :
    rule.check doc = rule.findings doc := by
  unfold check
  rw [List.map_congr_left (g := id), List.map_id]
  intro v hv
  obtain ⟨position, message, -, rfl⟩ := rule.areFindings doc v hv
  rw [h]
  rfl

end ProcessLint
