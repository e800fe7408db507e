import Mathlib.Data.List.Nodup
import Mathlib.Data.List.Perm.Subperm
import Mathlib.Data.List.Sublists
import ProcessLint.Rule.Basic

/-!
Sets of rules are told by their members: they have the order of all rules, and taking rules out
by name takes out just these.
-/
namespace ProcessLint

theorem Rule.ofName?_name (rule : Rule) : ofName? rule.name = some rule := by
  cases rule <;> decide

theorem Rule.ofName?_eq_some {name : String} {rule : Rule} :
    ofName? name = some rule ↔ rule.name = name := by
  constructor
  · intro h
    simpa using List.find?_some h
  · rintro rfl
    exact ofName?_name rule

theorem Rule.ofName?_eq_none {name : String} :
    ofName? name = none ↔ ∀ rule : Rule, rule.name ≠ name := by
  constructor
  · rintro h rule rfl
    rw [ofName?_name] at h
    cases h
  · intro h
    exact Option.eq_none_iff_forall_ne_some.mpr fun rule hrule => h rule (ofName?_eq_some.mp hrule)

theorem Rule.name_injective : Function.Injective Rule.name := by
  intro rule other h
  exact Option.some.inj ((ofName?_name rule).symm.trans (h ▸ ofName?_name other))

namespace RuleSet

theorem rules_eq_filter (set : RuleSet) : set.rules = Rule.all.filter (· ∈ set.rules) := by
  have hsub := set.sublist_all.filter (· ∈ set.rules)
  rw [List.filter_eq_self.mpr (by simp)] at hsub
  have hnodup : (Rule.all.filter (· ∈ set.rules)).Nodup :=
    List.Nodup.filter _ (by decide)
  have hsubset : Rule.all.filter (· ∈ set.rules) ⊆ set.rules := by
    intro rule hrule
    simpa using (List.mem_filter.mp hrule).2
  exact hsub.eq_of_length_le (hnodup.subperm hsubset).length_le

theorem fixes_eq_filterMap (set : RuleSet) :
    set.fixes = (Rule.all.filter (· ∈ set.rules)).filterMap Rule.fix? := by
  rw [← set.rules_eq_filter]
  rfl

theorem nodup_fixes (set : RuleSet) : set.fixes.Nodup := by
  have hall : (Rule.all.filterMap Rule.fix?).Nodup := by decide
  exact hall.sublist (set.sublist_all.filterMap _)

theorem fixes_cases (set : RuleSet) :
    set.fixes = [] ∨ set.fixes = [.version] ∨ set.fixes = [.sortProcesses] ∨
      set.fixes = [.version, .sortProcesses] := by
  have hsub : set.fixes.Sublist [.version, .sortProcesses] := set.sublist_all.filterMap Rule.fix?
  generalize set.fixes = fixes at hsub
  have hmem := List.mem_sublists.mpr hsub
  have hall : List.sublists [Fix.version, .sortProcesses] =
      [[], [.version], [.sortProcesses], [.version, .sortProcesses]] := by decide
  rw [hall] at hmem
  simpa using hmem

theorem fixes_erase (set : RuleSet) (fix : Fix) :
    (set.erase fix.rule).fixes = set.fixes.filter (· ≠ fix) := by
  unfold fixes erase
  rw [List.filterMap_filter, List.filter_filterMap]
  congr 1
  funext rule
  cases fix <;> cases rule <;> rfl

/-- Leaving out fixes by name never fails. -/
theorem without_fixes (fixes : List Fix) :
    ∀ set : RuleSet, ∃ rest, set.without (fixes.map (·.name)) = .ok rest ∧
      rest.fixes = set.fixes.filter (· ∉ fixes) := by
  induction fixes with
  | nil =>
    intro set
    exact ⟨set, rfl, by simp⟩
  | cons fix fixes ih =>
    intro set
    obtain ⟨rest, hrest, hfixes⟩ := ih (set.erase fix.rule)
    refine ⟨rest, ?_, ?_⟩
    · rw [List.map_cons, without, Fix.name, Rule.ofName?_name]
      exact hrest
    · rw [hfixes, fixes_erase, List.filter_filter]
      congr 1
      funext other
      simp [Bool.and_comm]

theorem erase_filter (set : RuleSet) (rule : Rule) (names : List String) :
    (set.erase rule).rules.filter (·.name ∉ names) =
      set.rules.filter (·.name ∉ rule.name :: names) := by
  unfold erase
  rw [List.filter_filter]
  refine List.filter_congr fun other _ => ?_
  rw [Bool.eq_iff_iff]
  simp [Rule.name_injective.eq_iff, and_comm]

/-- Taking rules out by name succeeds if each name is that of a rule, and leaves the others. -/
theorem without_eq_ok {names : List String} :
    ∀ {set rest : RuleSet}, set.without names = .ok rest ↔
      (∀ name ∈ names, ∃ rule : Rule, rule.name = name) ∧
        rest.rules = set.rules.filter (·.name ∉ names) := by
  induction names with
  | nil =>
    rintro ⟨rules, hrules⟩ ⟨others, hothers⟩
    simp [without, eq_comm]
  | cons name names ih =>
    intro set rest
    rw [without, List.forall_mem_cons]
    cases hrule : Rule.ofName? name with
    | none =>
      refine iff_of_false (fun h => by cases h) ?_
      rintro ⟨⟨⟨rule, hname⟩, -⟩, -⟩
      exact Rule.ofName?_eq_none.mp hrule rule hname
    | some rule =>
      obtain rfl := Rule.ofName?_eq_some.mp hrule
      have hknown : ∃ other : Rule, other.name = rule.name := ⟨rule, rfl⟩
      rw [ih, erase_filter, and_iff_right hknown]

end RuleSet

end ProcessLint
