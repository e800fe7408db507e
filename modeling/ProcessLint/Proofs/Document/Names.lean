import ProcessLint.Document.Parse
import ProcessLint.Proofs.Yaml.Keys

/-!
No two processes of a document that was read have the same name, and no two dependencies of a
process. The content refuses a key that is there already, a process keeps the text of its key as its
name, whatever its fields are, and so does a dependency.
-/
namespace ProcessLint

open Yaml

section Keys

variable {ε α : Type} {decode : Value × Value → Except ε α} {nameOf : α → String}
variable {entries : List (Value × Value)} {found : List α}

/-- Where each entry is named by its key, the keys tell the names. -/
theorem keys_of_mapM (hkey : ∀ entry a, decode entry = .ok a → entry.1 = .string (nameOf a))
    (h : entries.mapM decode = .ok found) :
    entries.map (·.1) = found.map fun a => .string (nameOf a) := by
  have hread := forall₂_of_mapM h
  clear h
  induction hread with
  | nil => rfl
  | cons ha _ ih => rw [List.map_cons, List.map_cons, hkey _ _ ha, ih]

theorem nodup_of_mapM (hkey : ∀ entry a, decode entry = .ok a → entry.1 = .string (nameOf a))
    (hdistinct : (Value.mapping entries).DistinctKeys) (h : entries.mapM decode = .ok found) :
    (found.map nameOf).Nodup := by
  cases hdistinct with
  | mapping hpairwise hkeys hvalues =>
    rw [keys_of_mapM hkey h, List.pairwise_map] at hpairwise
    rw [List.Nodup, List.pairwise_map]
    refine hpairwise.imp ?_
    intro a b hab heq
    simp [Value.same, heq] at hab

end Keys

namespace Decode

/-- What every setter of a record keeps for the values at hand, reading the record keeps. -/
theorem entries_keeps {α : Type} {fields : Fields α} {P : α → Prop} :
    ∀ (pairs : List (Value × Value)) (seen : List String) (a b : α),
      (∀ pair ∈ pairs, ∀ name set, fields name = some set →
        ∀ a b, set pair.2 a = .ok b → P a → P b) →
      entries fields pairs seen a = .ok b → P a → P b := by
  intro pairs
  induction pairs with
  | nil =>
    intro seen a b _ h ha
    cases h
    exact ha
  | cons pair rest ih =>
    obtain ⟨key, value⟩ := pair
    intro seen a b hset h ha
    obtain ⟨hvalue, hrest⟩ := List.forall_mem_cons.mp hset
    unfold entries at h
    split at h
    · rename_i name hname
      split at h
      · exact ih seen a b hrest h ha
      · rename_i set hfield
        split at h
        · cases h
        · obtain ⟨a', ha', h⟩ := bind_eq_ok h
          exact ih (name :: seen) a' b hrest h (hvalue name set hfield a a' ha' ha)
    · cases h

theorem record_keeps {α : Type} {fields : Fields α} {P : α → Prop} (name : String) (v : Value)
    (hset : ∀ pairs, v.untag = .mapping pairs → ∀ pair ∈ pairs, ∀ name set,
      fields name = some set → ∀ a b, set pair.2 a = .ok b → P a → P b)
    (start : α) (hstart : P start) (a : α) (h : record name fields start v = .ok a) : P a := by
  unfold record at h
  split at h
  · rename_i pairs hpairs
    exact entries_keeps pairs [] start a (hset pairs hpairs) h hstart
  · cases h
    exact hstart
  · cases h

/-- A process keeps the name that it is given, and has the dependencies of one of its fields. -/
theorem process_spec {name : String} {v : Value} {p : Process} (h : process name v = .ok p) :
    p.name = name ∧ (p.dependsOn = [] ∨ ∃ pairs, v.untag = .mapping pairs ∧
      ∃ pair ∈ pairs, dependencies pair.2 = .ok p.dependsOn) := by
  unfold process at h
  refine record_keeps (P := fun p => p.name = name ∧ (p.dependsOn = [] ∨
    ∃ pairs, v.untag = .mapping pairs ∧ ∃ pair ∈ pairs, dependencies pair.2 = .ok p.dependsOn))
    "Process" v ?_ (.named name) ⟨rfl, .inl rfl⟩ p h
  rintro pairs hpairs pair hpair key set hset a b hb ⟨hname, hdependsOn⟩
  -- Every known field puts its value beside the name; the others have no setter.
  split at hset
  all_goals cases hset
  case h_4 =>
    obtain ⟨found, hfound, rfl⟩ := map_eq_ok hb
    exact ⟨hname, .inr ⟨pairs, hpairs, pair, hpair, hfound⟩⟩
  all_goals
    obtain ⟨_, -, rfl⟩ := map_eq_ok hb
    exact ⟨hname, hdependsOn⟩

theorem key_of_dependency {entry : Value × Value} {found : Dependency}
    (h : dependency entry = .ok found) : entry.1 = .string found.name := by
  unfold dependency at h
  split at h
  · rename_i name hname
    obtain ⟨condition, -, h⟩ := bind_eq_ok h
    cases h
    exact hname
  · cases h

theorem nodup_dependencies {v : Value} {found : List Dependency} (hv : v.DistinctKeys)
    (h : dependencies v = .ok found) : (found.map (·.name)).Nodup := by
  have hdistinct := hv.untag
  unfold dependencies at h
  split at h
  · rename_i entries hentries
    rw [hentries] at hdistinct
    exact nodup_of_mapM (fun _ _ => key_of_dependency) hdistinct h
  · cases h
    exact List.nodup_nil
  · cases h

theorem nodup_dependsOn {name : String} {v : Value} {p : Process} (hv : v.DistinctKeys)
    (h : process name v = .ok p) : (p.dependsOn.map (·.name)).Nodup := by
  obtain ⟨-, hnone | ⟨pairs, hpairs, pair, hpair, hfound⟩⟩ := process_spec h
  · rw [hnone]
    exact List.nodup_nil
  · have hdistinct := hv.untag
    rw [hpairs] at hdistinct
    cases hdistinct with
    | mapping _ _ hvalues => exact nodup_dependencies (hvalues pair hpair) hfound

end Decode

namespace RawDocument

open Content Content.Decode

/-- The processes that have been read have distinct keys, and so has all that lies in them. -/
def HasDistinctKeys (raw : RawDocument) : Prop :=
  (Value.mapping (raw.processes.getD [])).DistinctKeys

theorem fields_distinctKeys (stream : Stream) (depth : Nat) :
    ∀ (n : Nat) (raw : RawDocument), raw.HasDistinctKeys →
      Yields (fields stream depth n raw) HasDistinctKeys := by
  intro n
  induction n with
  | zero =>
    intro raw hraw
    exact Yields.throw _
  | succ n ih =>
    intro raw hraw
    rw [fields]
    refine Yields.bind_right fun (event, mark) => ?_
    dsimp only
    split
    · exact Yields.bind_right fun _ => Yields.pure hraw
    · exact Yields.bind_right fun _ => Yields.pure hraw
    · refine Yields.bind_right fun name => ?_
      split
      · exact Yields.guarded (Yields.bind_right fun _ => ih _ hraw)
      · exact Yields.guarded (Yields.bind_right fun _ => ih _ hraw)
      · exact Yields.guarded (Yields.bind_right fun _ => ih _ hraw)
      · refine Yields.guarded ?_
        refine (Yields.optional (mapping_distinctKeys stream _ depth) stream).bind fun read hread => ?_
        refine ih _ ?_
        cases read with
        | none => exact Value.distinctKeys_nil
        | some entries => exact hread entries rfl
      · exact Yields.bind_right fun _ => ih raw hraw

theorem root_distinctKeys (stream : Stream) : Yields (root stream) HasDistinctKeys := by
  have hempty : empty.HasDistinctKeys := Value.distinctKeys_nil
  refine Yields.bind_right fun (event, mark) => Yields.placed ?_ [] mark
  split
  · exact Yields.bind_right fun depth => fields_distinctKeys stream depth _ empty hempty
  · exact Yields.pure hempty
  · exact Yields.pure hempty
  · exact Yields.wrongEvent event _

theorem ofText_distinctKeys {text : List Char} {raw : RawDocument} (h : ofText text = .ok raw) :
    raw.HasDistinctKeys := by
  obtain ⟨⟨read, after⟩, hread, h⟩ := bind_eq_ok h
  have hdistinct := root_distinctKeys _ _ _ _ hread
  dsimp only at h
  split at h
  · cases h
  · split at h
    · cases h
    · cases h
      exact hdistinct

end RawDocument

namespace Declarations

/-- Processes have the names that stand as keys in the text, and no name is empty. -/
theorem processOf_spec {entry : Value × Value} {p : Process} (h : processOf entry = .ok p) :
    entry.1 = .string p.name ∧ p.name ≠ "" ∧ Decode.process p.name entry.2 = .ok p := by
  unfold processOf at h
  split at h
  · rename_i name hname
    split at h
    · cases h
    · rename_i hne
      have hp := mapError_eq_ok h
      obtain ⟨rfl, -⟩ := Decode.process_spec hp
      exact ⟨hname, hne, hp⟩
  · cases h

theorem keys_eq_names {entries : List (Value × Value)} {processes : List Process}
    (h : entries.mapM processOf = .ok processes) :
    entries.map (·.1) = processes.map fun p => .string p.name :=
  keys_of_mapM (fun _ _ h => (processOf_spec h).1) h

/-- What is declared comes from the fields of the root. -/
theorem exists_raw_of_ofText {text : List Char} {declared : Declarations}
    (h : ofText text = .ok declared) : ∃ raw, RawDocument.ofText text = .ok raw ∧
      versionOf (raw.version.getD none) = .ok declared.version ∧
      declared.envFiles = (raw.envFiles.getD []).filter (!·.isBlank) ∧
      (raw.processes.getD []).mapM processOf = .ok declared.processes := by
  obtain ⟨raw, hraw, h⟩ := bind_eq_ok h
  obtain ⟨version, hversion, h⟩ := bind_eq_ok h
  obtain ⟨processes, hprocesses, h⟩ := bind_eq_ok h
  cases h
  exact ⟨raw, mapError_eq_ok hraw, hversion, rfl, hprocesses⟩

theorem ofText_nodup {text : List Char} {declared : Declarations}
    (h : ofText text = .ok declared) : (declared.processes.map (·.name)).Nodup := by
  obtain ⟨raw, hraw, -, -, hprocesses⟩ := exists_raw_of_ofText h
  exact nodup_of_mapM (fun _ _ h => (processOf_spec h).1) (RawDocument.ofText_distinctKeys hraw)
    hprocesses

end Declarations

namespace Document

/-- A document declares nothing, as its root is absent, or what its text does. -/
theorem exists_root_of_ofText {path text : String} {doc : Document}
    (h : ofText path text = .ok doc) : ∃ events, Outline.read text.toList = .ok events ∧
      (((SourceMap.ofEvents events).1 = .absent ∧
          Declarations.mk doc.version doc.envFiles doc.processes = .empty) ∨
        ((SourceMap.ofEvents events).1 = .mapping ∧
          Declarations.ofText text.toList =
            .ok ⟨doc.version, doc.envFiles, doc.processes⟩)) := by
  obtain ⟨events, hevents, h⟩ := bind_eq_ok h
  refine ⟨events, mapError_eq_ok hevents, ?_⟩
  dsimp only at h
  split at h
  · rename_i hroot
    cases h
    exact .inl ⟨hroot, rfl⟩
  · cases h
  · rename_i hroot
    obtain ⟨declared, hdeclared, h⟩ := bind_eq_ok h
    cases h
    exact .inr ⟨hroot, hdeclared⟩

/-- The processes of a document that was read have different names. -/
theorem nodup_names_of_ofText {path text : String} {doc : Document}
    (h : ofText path text = .ok doc) : (doc.processes.map (·.name)).Nodup := by
  obtain ⟨events, -, ⟨-, hempty⟩ | ⟨-, hdeclared⟩⟩ := exists_root_of_ofText h
  · have hnone : doc.processes = [] := congrArg Declarations.processes hempty
    rw [hnone]
    exact List.nodup_nil
  · exact Declarations.ofText_nodup hdeclared

end Document

end ProcessLint
