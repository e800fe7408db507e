import ProcessLint.Proofs.Rule.Findings
import ProcessLint.Proofs.Rule.Sets

/-!
Rules left out by name. The names are looked up one after the other, and the first that no rule has
is refused. Otherwise the rules that stay report just what they report among all rules: leaving out
takes away the violations of some rules, and neither changes nor moves the others.
-/
namespace ProcessLint

namespace Rule

/-- Rules that have a fix. -/
theorem isFixable_iff {rule : Rule} : rule.isFixable = true ↔ ∃ fix : Fix, fix.rule = rule := by
  constructor
  · intro h
    obtain ⟨fix, hfix⟩ := Option.isSome_iff_exists.mp h
    refine ⟨fix, ?_⟩
    cases rule <;> cases hfix <;> rfl
  · rintro ⟨fix, rfl⟩
    cases fix <;> rfl

/-- All violations of a rule share its name, so a choice of names keeps them all or none. -/
theorem filter_check (rule : Rule) (doc : Document) (names : List String) :
    (rule.check doc).filter (·.rule.name ∉ names) =
      if rule.name ∈ names then [] else rule.check doc := by
  have hname : ∀ v ∈ rule.check doc, v.rule.name = rule.name := by
    intro v hv
    rw [rule_of_mem_check hv]
  by_cases hmem : rule.name ∈ names
  · rw [if_pos hmem, List.filter_eq_nil_iff]
    intro v hv
    simp [hname v hv, hmem]
  · rw [if_neg hmem, List.filter_eq_self]
    intro v hv
    simp [hname v hv, hmem]

/-- Where a rule stands among all rules. -/
def place (rule : Rule) : Nat := Rule.all.idxOf rule

end Rule

namespace RuleSet

variable {set rest : RuleSet} {doc : Document} {names : List String}

/-- What is refused is the first name that no rule has. -/
theorem without_eq_error {e : UnknownRule} : ∀ {names : List String} {set : RuleSet},
    set.without names = .error e ↔
      names.find? (fun name => (Rule.ofName? name).isNone) = some e.name := by
  intro names
  induction names with
  | nil =>
    intro set
    exact iff_of_false (fun h => by cases h) (fun h => by cases h)
  | cons name names ih =>
    intro set
    rw [without, List.find?_cons]
    cases hrule : Rule.ofName? name with
    | none =>
      obtain ⟨refused⟩ := e
      simp
    | some rule =>
      dsimp only [Option.isNone_some]
      exact ih

theorem exists_unknown_of_without (h : set.without names = .error ⟨name⟩) :
    ∃ known unread, names = known ++ name :: unread ∧
      (∀ earlier ∈ known, ∃ rule : Rule, rule.name = earlier) ∧
      ∀ rule : Rule, rule.name ≠ name := by
  obtain ⟨hnone, known, unread, hnames, hknown⟩ :=
    List.find?_eq_some_iff_append.mp (without_eq_error.mp h)
  refine ⟨known, unread, hnames, ?_, ?_⟩
  · intro earlier hearlier
    have hsome := hknown earlier hearlier
    rw [Bool.not_eq_true', Option.isNone_eq_false_iff, Option.isSome_iff_exists] at hsome
    obtain ⟨rule, hrule⟩ := hsome
    exact ⟨rule, Rule.ofName?_eq_some.mp hrule⟩
  · exact Rule.ofName?_eq_none.mp (Option.isNone_iff_eq_none.mp hnone)

/-- The rules that stay find what they found before. -/
theorem check_without (h : set.without names = .ok rest) :
    rest.check doc = (set.check doc).filter (·.rule.name ∉ names) := by
  obtain ⟨-, hrules⟩ := without_eq_ok.mp h
  unfold check
  rw [hrules, List.filter_flatMap]
  simp only [Rule.filter_check]
  induction set.rules with
  | nil => rfl
  | cons rule rules ih =>
    rw [List.flatMap_cons, ← ih]
    by_cases hmem : rule.name ∈ names <;> simp [hmem]

/-- Only which names are given counts, not in which order or how often. -/
theorem without_congr {others : List String} (hsame : ∀ name, name ∈ others ↔ name ∈ names)
    (h : set.without names = .ok rest) : set.without others = .ok rest := by
  obtain ⟨hknown, hrules⟩ := without_eq_ok.mp h
  refine without_eq_ok.mpr ⟨?_, ?_⟩
  · intro name hname
    exact hknown name ((hsame name).mp hname)
  · rw [hrules]
    simp only [hsame]

/-- What is said with every violation that a set of rules reports for a document. -/
structure Reports (set : RuleSet) (doc : Document) : Prop where
  enabled : ∀ v ∈ set.check doc, v.rule ∈ set.rules
  file : ∀ v ∈ set.check doc, v.file = doc.path
  severity : ∀ v ∈ set.check doc, v.severity = v.rule.severity
  fixable : ∀ v ∈ set.check doc, v.fixable = true ↔ ∃ fix : Fix, fix.rule = v.rule
  /-- Where the position of a violation is known it is that of a key or an item. -/
  placed : ∀ v ∈ set.check doc,
    v.position = ⟨0, 0⟩ ∨ ∃ path, doc.sourceMap.get? path = some v.position
  /-- Rule by rule, in the order of all rules. -/
  grouped : (set.check doc).Pairwise fun v w => v.rule.place ≤ w.rule.place

theorem pairwise_place (set : RuleSet) :
    set.rules.Pairwise fun rule other => rule.place ≤ other.place := by
  have hall : Rule.all.Pairwise fun rule other => rule.place ≤ other.place := by decide
  exact hall.sublist set.sublist_all

theorem reports (set : RuleSet) (doc : Document) : set.Reports doc := by
  have hfound : ∀ v ∈ set.check doc, ∃ rule ∈ set.rules, ∃ position message,
      doc.IsPlace position ∧ v = { rule.violation doc position message with
        fixable := rule.isFixable } := by
    intro v hv
    obtain ⟨rule, hrule, hv⟩ := List.mem_flatMap.mp hv
    exact ⟨rule, hrule, Rule.eq_of_mem_check hv⟩
  refine ⟨?_, ?_, ?_, ?_, ?_, ?_⟩
  · intro v hv
    obtain ⟨rule, hrule, position, message, -, rfl⟩ := hfound v hv
    exact hrule
  · intro v hv
    obtain ⟨rule, -, position, message, -, rfl⟩ := hfound v hv
    rfl
  · intro v hv
    obtain ⟨rule, -, position, message, -, rfl⟩ := hfound v hv
    rfl
  · intro v hv
    obtain ⟨rule, -, position, message, -, rfl⟩ := hfound v hv
    exact Rule.isFixable_iff
  · intro v hv
    obtain ⟨rule, -, position, message, hplace, rfl⟩ := hfound v hv
    exact hplace
  · unfold check
    rw [List.pairwise_flatMap]
    refine ⟨?_, ?_⟩
    · intro rule _
      refine List.pairwise_of_forall_mem_list ?_
      intro v hv w hw
      rw [Rule.rule_of_mem_check hv, Rule.rule_of_mem_check hw]
    · refine set.pairwise_place.imp ?_
      intro rule other hplace v hv w hw
      rw [Rule.rule_of_mem_check hv, Rule.rule_of_mem_check hw]
      exact hplace

/-- Leaving out rules fails just at a name that no rule has. Otherwise it takes the violations of
the rules with these names out of the report and leaves all others in their order. -/
theorem without_filters (doc : Document) (names : List String) :
    match all.without names with
    | .error e => ∃ known unread, names = known ++ e.name :: unread ∧
        (∀ name ∈ known, ∃ rule : Rule, rule.name = name) ∧ ∀ rule : Rule, rule.name ≠ e.name
    | .ok set => (∀ name ∈ names, ∃ rule : Rule, rule.name = name) ∧
        set.check doc = (all.check doc).filter (·.rule.name ∉ names) ∧
        (∀ others, (∀ name, name ∈ others ↔ name ∈ names) → all.without others = .ok set) ∧
        all.Reports doc ∧ set.Reports doc := by
  split
  · rename_i e herror
    exact exists_unknown_of_without herror
  · rename_i set hset
    refine ⟨(without_eq_ok.mp hset).1, check_without hset, ?_, all.reports doc, set.reports doc⟩
    intro others hsame
    exact without_congr hsame hset

end RuleSet

end ProcessLint
