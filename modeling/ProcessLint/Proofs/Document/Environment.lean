import ProcessLint.Document.Basic
import ProcessLint.Proofs.Text.Split
import ProcessLint.Proofs.Text.Trim

/-!
Entries of the environment of a process. The first equals sign of an entry parts its key from its
value, and only the key is trimmed.
-/
namespace ProcessLint.Process

open Text

/-- An entry with its key and its value. Without an equals sign all of it is the key. -/
inductive Assigns (entry key value : String) : Prop
  | parted {before : List Char} : '=' ∉ before → entry.toList = before ++ '=' :: value.toList →
      HasCore before key.toList → Assigns entry key value
  | bare : '=' ∉ entry.toList → HasCore entry.toList key.toList → value = "" →
      Assigns entry key value

variable {p : Process} {entry key value : String}

private theorem ofList_trim_eq_iff {text : List Char} :
    String.ofList (trim text) = key ↔ HasCore text key.toList := by
  rw [← trim_eq_iff, ← String.toList_inj, String.toList_ofList]

theorem splitEntry_eq_iff : splitEntry entry = (key, value) ↔ Assigns entry key value := by
  unfold splitEntry
  cases hsplit : splitFirst '=' entry.toList with
  | some parts =>
    obtain ⟨before, behind⟩ := parts
    obtain ⟨htext, hbefore⟩ := splitFirst_eq_some hsplit
    dsimp only
    rw [Prod.mk.injEq, ofList_trim_eq_iff]
    constructor
    · rintro ⟨hcore, rfl⟩
      exact .parted hbefore (by rw [htext, String.toList_ofList]) hcore
    · rintro (⟨hnot, hother, hcore⟩ | ⟨hnot, -, -⟩)
      · rw [hother, splitFirst_append _ hnot] at hsplit
        cases hsplit
        exact ⟨hcore, String.ofList_toList⟩
      · exact absurd (htext ▸ List.mem_append_right _ (List.mem_cons_self ..)) hnot
  | none =>
    have hnone := splitFirst_eq_none.mp hsplit
    dsimp only
    unfold String.trimSpace
    rw [Prod.mk.injEq, ofList_trim_eq_iff]
    constructor
    · rintro ⟨hcore, rfl⟩
      exact .bare hnone hcore rfl
    · rintro (⟨-, hother, -⟩ | ⟨-, hcore, rfl⟩)
      · exact absurd (hother ▸ List.mem_append_right _ (List.mem_cons_self ..)) hnone
      · exact ⟨hcore, rfl⟩

theorem assigns_splitEntry (entry : String) :
    Assigns entry (splitEntry entry).1 (splitEntry entry).2 :=
  splitEntry_eq_iff.mp rfl

theorem mem_values : value ∈ p.environmentPairs.map (·.2) ↔
    ∃ entry ∈ p.environment, ∃ key, Assigns entry key value := by
  unfold environmentPairs
  rw [List.map_map, List.mem_map]
  refine exists_congr fun entry => and_congr_right fun _ => ?_
  simp only [← splitEntry_eq_iff, Prod.ext_iff]
  exact ⟨fun h => ⟨_, rfl, h⟩, fun ⟨_, _, h⟩ => h⟩

end ProcessLint.Process
