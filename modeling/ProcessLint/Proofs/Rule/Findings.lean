import ProcessLint.Rule.Check

/-!
What rules report. Every finding of a rule is a violation of just that rule by the document, so it
bears the severity of the rule and the path of the document, and its position is that of a key or
item of the text, or unknown.
-/
namespace ProcessLint

namespace Document

/-- Recorded for some path, or unknown. -/
def IsPlace (doc : Document) (position : Position) : Prop :=
  position = .unknown ∨ ∃ path, doc.sourceMap.get? path = some position

theorem isPlace_positionOfKey (doc : Document) (key : String) :
    doc.IsPlace (doc.positionOfKey key) := by
  unfold positionOfKey
  cases hkey : doc.sourceMap.get? [key] with
  | none => exact .inl rfl
  | some position => exact .inr ⟨_, hkey⟩

theorem isPlace_positionOf (doc : Document) (process : String) (field : List String) :
    doc.IsPlace (doc.positionOf process field) := by
  unfold positionOf
  cases hfield : doc.sourceMap.get? ("processes" :: process :: field) with
  | some position => exact .inr ⟨_, hfield⟩
  | none =>
    cases hprocess : doc.sourceMap.get? ["processes", process] with
    | some position => exact .inr ⟨_, hprocess⟩
    | none => exact .inl rfl

end Document

namespace Rule

/-- Violations of one rule by one document. -/
def AreFindings (rule : Rule) (doc : Document) (violations : List Violation) : Prop :=
  ∀ v ∈ violations, ∃ position message,
    doc.IsPlace position ∧ v = rule.violation doc position message

variable {rule : Rule} {doc : Document}

namespace AreFindings

theorem nil : rule.AreFindings doc [] := by simp [AreFindings]

theorem singleton {position : Position} {message : String} (h : doc.IsPlace position) :
    rule.AreFindings doc [rule.violation doc position message] := by
  intro v hv
  exact ⟨position, message, h, List.mem_singleton.mp hv⟩

theorem append {violations more : List Violation} (h : rule.AreFindings doc violations)
    (hmore : rule.AreFindings doc more) : rule.AreFindings doc (violations ++ more) :=
  List.forall_mem_append.mpr ⟨h, hmore⟩

theorem flatMap {α : Type} {items : List α} {f : α → List Violation}
    (h : ∀ item, rule.AreFindings doc (f item)) : rule.AreFindings doc (items.flatMap f) := by
  intro v hv
  obtain ⟨item, -, hv⟩ := List.mem_flatMap.mp hv
  exact h item v hv

theorem map {α : Type} {items : List α} {position : α → Position} {message : α → String}
    (h : ∀ item, doc.IsPlace (position item)) :
    rule.AreFindings doc (items.map fun item => rule.violation doc (position item) (message item)) := by
  intro v hv
  obtain ⟨item, -, rfl⟩ := List.mem_map.mp hv
  exact ⟨_, _, h item, rfl⟩

theorem filterMap {α : Type} {items : List α} {f : α → Option Violation}
    (h : ∀ item, rule.AreFindings doc (f item).toList) :
    rule.AreFindings doc (items.filterMap f) := by
  intro v hv
  obtain ⟨item, -, hitem⟩ := List.mem_filterMap.mp hv
  exact h item v (Option.mem_toList.mpr hitem)

end AreFindings

theorem areFindings_commands (doc : Document) :
    taskCommand.AreFindings doc (Task.checkCommands doc) := by
  refine .filterMap fun p => ?_
  split
  · exact .nil
  · exact .singleton (doc.isPlace_positionOf _ _)

theorem areFindings_health (doc : Document) :
    taskHealth.AreFindings doc (Task.checkHealth doc) := by
  refine .filterMap fun p => ?_
  split
  · split
    · exact .nil
    · exact .singleton (doc.isPlace_positionOf _ _)
  · exact .nil

theorem areFindings_substitution (doc : Document) :
    envSubstitution.AreFindings doc (Environment.checkSubstitution doc) := by
  refine .flatMap fun p => ?_
  exact .map fun _ => doc.isPlace_positionOf _ _

theorem areFindings_envFile (doc : Document) :
    envFile.AreFindings doc (Environment.checkEnvFile doc) := by
  unfold Environment.checkEnvFile
  split
  · exact .map fun p => doc.isPlace_positionOf p.name []
  · exact .nil

theorem areFindings_time (doc : Document) (name : String) (s : Schedule) :
    scheduleConfig.AreFindings doc (Timing.checkTime doc name s) := by
  unfold Timing.checkTime
  dsimp only
  split
  · exact .singleton (doc.isPlace_positionOf _ _)
  · exact .singleton (doc.isPlace_positionOf _ _)
  · split
    · exact .nil
    · exact .singleton (doc.isPlace_positionOf _ _)
  · split
    · exact .nil
    · exact .singleton (doc.isPlace_positionOf _ _)

theorem areFindings_concurrency (doc : Document) (name : String) (s : Schedule) :
    scheduleConfig.AreFindings doc (Timing.checkConcurrency doc name s) := by
  unfold Timing.checkConcurrency
  split
  · split
    · exact .singleton (doc.isPlace_positionOf _ _)
    · exact .nil
  · exact .nil

theorem areFindings_schedules (doc : Document) :
    scheduleConfig.AreFindings doc (Timing.check doc) := by
  refine .flatMap fun p => ?_
  split
  · exact (areFindings_time doc _ _).append (areFindings_concurrency doc _ _)
  · exact .nil

theorem areFindings_version (doc : Document) : version.AreFindings doc (checkVersion doc) := by
  unfold checkVersion
  split
  · exact .singleton (doc.isPlace_positionOfKey _)
  · exact .nil

theorem areFindings_order (doc : Document) : sortProcesses.AreFindings doc (checkOrder doc) := by
  unfold checkOrder
  split
  · exact .nil
  · exact .singleton (doc.isPlace_positionOf _ _)

/-- Whatever a rule finds it finds in its own name. -/
theorem areFindings (rule : Rule) (doc : Document) : rule.AreFindings doc (rule.findings doc) := by
  cases rule with
  | taskCommand => exact areFindings_commands doc
  | taskHealth => exact areFindings_health doc
  | shutdownConfig => exact .map fun p => doc.isPlace_positionOf p.name ["shutdown"]
  | restartPolicy => exact .map fun p => doc.isPlace_positionOf p.name ["availability"]
  | envSubstitution => exact areFindings_substitution doc
  | envFile => exact areFindings_envFile doc
  | readinessProbe => exact .map fun p => doc.isPlace_positionOf p.name []
  | scheduleConfig => exact areFindings_schedules doc
  | version => exact areFindings_version doc
  | sortProcesses => exact areFindings_order doc

/-- A violation in a report is a finding of its rule that is marked as fixable or not. -/
theorem eq_of_mem_check {v : Violation} (h : v ∈ rule.check doc) : ∃ position message,
    doc.IsPlace position ∧ v = { rule.violation doc position message with
      fixable := rule.isFixable } := by
  obtain ⟨found, hfound, rfl⟩ := List.mem_map.mp h
  obtain ⟨position, message, hplace, rfl⟩ := rule.areFindings doc found hfound
  exact ⟨position, message, hplace, rfl⟩

theorem rule_of_mem_check {v : Violation} (h : v ∈ rule.check doc) : v.rule = rule := by
  obtain ⟨position, message, -, rfl⟩ := eq_of_mem_check h
  rfl

theorem severity_of_mem_check {v : Violation} (h : v ∈ rule.check doc) :
    v.severity = rule.severity := by
  obtain ⟨position, message, -, rfl⟩ := eq_of_mem_check h
  rfl

end Rule

/-- The rules whose violations are errors. -/
theorem Rule.severity_eq_error {rule : Rule} :
    rule.severity = .error ↔ rule ∈ [Rule.envFile, .scheduleConfig, .version] := by
  cases rule <;> decide

/-- Errors are counted just when a rule for errors has found something. -/
theorem RuleSet.errors_pos {set : RuleSet} {doc : Document} :
    0 < (Violation.tally (set.check doc)).1 ↔
      ∃ rule ∈ [Rule.envFile, .scheduleConfig, .version],
        rule ∈ set.rules ∧ rule.check doc ≠ [] := by
  unfold Violation.tally RuleSet.check
  rw [List.countP_pos_iff]
  constructor
  · rintro ⟨v, hv, herror⟩
    obtain ⟨rule, hrule, hv⟩ := List.mem_flatMap.mp hv
    refine ⟨rule, Rule.severity_eq_error.mp ?_, hrule, List.ne_nil_of_mem hv⟩
    rw [← Rule.severity_of_mem_check hv]
    simpa [Violation.isError] using herror
  · rintro ⟨rule, hseverity, hrule, hfound⟩
    obtain ⟨v, hv⟩ := List.exists_mem_of_ne_nil _ hfound
    refine ⟨v, List.mem_flatMap.mpr ⟨rule, hrule, hv⟩, ?_⟩
    rw [Violation.isError, Rule.severity_of_mem_check hv, Rule.severity_eq_error.mpr hseverity]
    rfl

end ProcessLint
