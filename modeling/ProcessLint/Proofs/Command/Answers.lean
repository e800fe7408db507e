import ProcessLint.Command.Program
import ProcessLint.Proofs.Fix.Safety

/-!
What the commands on a document come to. They need the rules that are left and the document of
their file; whatever goes wrong before they have both ends the run. All that a command does
afterwards is told by these two.
-/
namespace ProcessLint.Command

variable {path : String} {disabled : List String} {contents : Contents} {set : RuleSet}
  {doc : Document}

theorem readDocument_eq_ok :
    readDocument path contents = .ok doc ↔
      ∃ bytes, contents = .ok bytes ∧ Document.parse path bytes = .ok doc := by
  cases contents with
  | error fault => simp [readDocument]
  | ok bytes => simp [readDocument]

/-- A name among the disabled ones is that of no rule, or the file holds no document. -/
def IsBlocked (path : String) (disabled : List String) (contents : Contents) : Prop :=
  (∃ name ∈ disabled, ∀ rule : Rule, rule.name ≠ name) ∨
    ∃ error, readDocument path contents = .error error

/-- The rules and the document with which a command goes on. -/
structure Begins (path : String) (disabled : List String) (contents : Contents) (set : RuleSet)
    (doc : Document) : Prop where
  rules : RuleSet.all.without disabled = .ok set
  document : readDocument path contents = .ok doc

namespace Begins

theorem parse (h : Begins path disabled contents set doc) :
    ∃ bytes, contents = .ok bytes ∧ Document.parse path bytes = .ok doc :=
  readDocument_eq_ok.mp h.document

theorem mem_rules (h : Begins path disabled contents set doc) {rule : Rule} :
    rule ∈ set.rules ↔ rule.name ∉ disabled := by
  have hall : rule ∈ Rule.all := by cases rule <;> decide
  rw [(RuleSet.without_eq_ok.mp h.rules).2]
  simp [RuleSet.all, hall]

theorem not_isBlocked (h : Begins path disabled contents set doc) :
    ¬ IsBlocked path disabled contents := by
  rintro (⟨name, hname, hunknown⟩ | ⟨error, herror⟩)
  · obtain ⟨rule, hrule⟩ := (RuleSet.without_eq_ok.mp h.rules).1 name hname
    exact hunknown rule hrule
  · rw [h.document] at herror
    cases herror

end Begins

theorem isBlocked_iff_rules_or_document :
    IsBlocked path disabled contents ↔
      (∃ e, RuleSet.all.without disabled = .error e) ∨
        ∃ error, readDocument path contents = .error error := by
  refine or_congr_left ?_
  cases hset : RuleSet.all.without disabled with
  | ok set =>
    refine iff_of_false ?_ (by simp)
    rintro ⟨name, hname, hunknown⟩
    obtain ⟨rule, hrule⟩ := (RuleSet.without_eq_ok.mp hset).1 name hname
    exact hunknown rule hrule
  | error e =>
    refine iff_of_true ?_ ⟨e, rfl⟩
    by_contra hknown
    push Not at hknown
    -- With known names only, the rules that are left would be a set.
    have hrest : (Rule.all.filter (·.name ∉ disabled)).Sublist Rule.all := List.filter_sublist
    have hok : RuleSet.all.without disabled = .ok ⟨_, hrest⟩ :=
      RuleSet.without_eq_ok.mpr ⟨hknown, rfl⟩
    rw [hset] at hok
    cases hok

/-- A command that is not blocked begins. -/
theorem isBlocked_or_begins (path : String) (disabled : List String) (contents : Contents) :
    IsBlocked path disabled contents ∨ ∃ set doc, Begins path disabled contents set doc := by
  rw [isBlocked_iff_rules_or_document]
  cases hset : RuleSet.all.without disabled with
  | error e => exact .inl (.inl ⟨e, rfl⟩)
  | ok set =>
    cases hdoc : readDocument path contents with
    | error error => exact .inl (.inr ⟨error, rfl⟩)
    | ok doc => exact .inr ⟨set, doc, hset, hdoc⟩

section Lint

theorem lintAnswer_of_begins (h : Begins path disabled contents set doc) (format : ReportFormat) :
    (lintAnswer path disabled format contents).output = report doc (set.check doc) format ∧
      (lintAnswer path disabled format contents).ending =
        if 0 < (Violation.tally (set.check doc)).1 then .refused else .done := by
  unfold lintAnswer
  rw [h.rules, h.document]
  exact ⟨rfl, rfl⟩

theorem lintAnswer_of_isBlocked (h : IsBlocked path disabled contents) (format : ReportFormat) :
    ∃ reasons, (lintAnswer path disabled format contents).ending = .failed reasons := by
  unfold lintAnswer
  rcases isBlocked_iff_rules_or_document.mp h with ⟨e, he⟩ | ⟨error, herror⟩
  · rw [he]
    exact ⟨_, rfl⟩
  · rw [herror]
    split <;> exact ⟨_, rfl⟩

end Lint

section Fmt

/-- A fix that is listed, with the reason for which it was declined. -/
abbrev Listed := Fix × Option String

/-- The line of a listed fix, which ends with `done` if it was applied. -/
def Listed.line (done : String) : Listed → String
  | (fix, none) => fix.name ++ done
  | (fix, some reason) => s!"{fix.name}: no change made: {reason}\n"

/-- Listed are the fixes that were applied and those that were declined. -/
def listed : List (Fix × Attempt) → List Listed :=
  List.filterMap fun (fix, attempt) =>
    match attempt.skipReason? with
    | some reason => some (fix, some reason)
    | none => if attempt.isApplied then some (fix, none) else none

/-- What is said of a fix that was applied. -/
def doneText (check : Bool) : String := if check then ": would fix\n" else ": fixed\n"

/-- What is said of the file in the end. -/
def fileLine (path : String) (check changed : Bool) : String :=
  if !changed then s!"{path}: unchanged\n"
  else if check then s!"{path}: would be rewritten\n"
  else s!"{path}: rewritten\n"

theorem filterMap_outcomeLine (check : Bool) (attempts : List (Fix × Attempt)) :
    (attempts.map fun (fix, attempt) => outcomeLine check fix attempt).filterMap Sum.getLeft? =
      (listed attempts).map (Listed.line (doneText check)) := by
  unfold listed
  rw [List.filterMap_map, List.map_filterMap]
  refine List.filterMap_congr fun (fix, attempt) _ => ?_
  dsimp only [Function.comp]
  unfold outcomeLine
  cases attempt.skipReason? with
  | some reason => rfl
  | none => cases attempt.isApplied <;> cases check <;> rfl

theorem fmtAnswer_of_begins (h : Begins path disabled contents set doc) (check : Bool) :
    let result := doc.runFixes set.fixes
    (fmtAnswer path disabled check contents).output =
        (listed result.attempts).map (Listed.line (doneText check)) ++
          [fileLine path check result.changed] ∧
      (fmtAnswer path disabled check contents).ending =
        if !result.changed then .done
        else if check then .refused
        else .rewrite result.content := by
  obtain ⟨bytes, rfl, hparse⟩ := h.parse
  unfold fmtAnswer
  rw [h.rules]
  dsimp only
  rw [hparse]
  dsimp only
  rw [filterMap_outcomeLine]
  cases (doc.runFixes set.fixes).changed <;> cases check <;> exact ⟨rfl, rfl⟩

theorem fmtAnswer_of_isBlocked (h : IsBlocked path disabled contents) (check : Bool) :
    ∃ reasons, (fmtAnswer path disabled check contents).ending = .failed reasons := by
  unfold fmtAnswer
  rcases isBlocked_iff_rules_or_document.mp h with ⟨e, he⟩ | ⟨error, herror⟩
  · rw [he]
    exact ⟨_, rfl⟩
  · split
    · exact ⟨_, rfl⟩
    · cases contents with
      | error fault => exact ⟨_, rfl⟩
      | ok bytes =>
        have hparse : Document.parse path bytes = .error error := herror
        dsimp only
        rw [hparse]
        exact ⟨_, rfl⟩

end Fmt

end ProcessLint.Command
