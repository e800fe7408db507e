import ProcessLint.Proofs.Command.Answers
import ProcessLint.Proofs.Rule.Findings

/-!
What the status of a run says. Looking for violations fails just when a rule for errors has found
one. Fixing is the same run with and without a check, up to its end: the one is refused just when
the other writes, and both list the same fixes.
-/
namespace ProcessLint

theorem Ending.code_le (ending : Ending) : ending.code ≤ 2 := by
  cases ending <;> simp [code]

namespace Command

/-- What looking for violations in a file comes to, in either format. -/
structure IsLinted (path : String) (disabled : List String) (contents : Contents)
    (lint : ReportFormat → Answer) : Prop where
  le_two : ∀ format, (lint format).ending.code ≤ 2
  two_iff : ∀ format, (lint format).ending.code = 2 ↔ IsBlocked path disabled contents
  one_iff : ∀ format, (lint format).ending.code = 1 ↔
    ¬ IsBlocked path disabled contents ∧ ∃ doc, readDocument path contents = .ok doc ∧
      ∃ rule ∈ [Rule.envFile, .scheduleConfig, .version],
        rule.name ∉ disabled ∧ rule.check doc ≠ []
  /-- The last line has the number of errors. -/
  summary : ¬ IsBlocked path disabled contents → ∃ (lines : List String) (errors warnings : Nat),
    (lint .text).output = lines ++ [s!"{path}: {errors} error(s), {warnings} warning(s)\n"] ∧
      ∀ format, (lint format).ending.code = 1 ↔ 0 < errors

/-- What fixing a file comes to, with a check and without. -/
structure IsFixed (path : String) (disabled : List String) (contents : Contents)
    (fmt : Bool → Answer) : Prop where
  le_two : ∀ check, (fmt check).ending.code ≤ 2
  two_iff : ∀ check, (fmt check).ending.code = 2 ↔ IsBlocked path disabled contents
  zero : ¬ IsBlocked path disabled contents → (fmt false).ending.code = 0
  check_iff : (fmt true).ending.code = 1 ↔ ∃ content, (fmt false).ending = .rewrite content
  /-- The fixes that were applied, and those that were declined with their reasons. -/
  listed : ¬ IsBlocked path disabled contents → ∃ fixes : List Listed, ∃ checked done : String,
    (fmt true).output = fixes.map (Listed.line ": would fix\n") ++ [checked] ∧
      (fmt false).output = fixes.map (Listed.line ": fixed\n") ++ [done]

variable (path : String) (disabled : List String) (contents : Contents)

theorem lintAnswer_isLinted :
    IsLinted path disabled contents fun format => lintAnswer path disabled format contents := by
  rcases isBlocked_or_begins path disabled contents with hblocked | ⟨set, doc, hbegins⟩
  · have hcode (format : ReportFormat) :
        (lintAnswer path disabled format contents).ending.code = 2 := by
      obtain ⟨reasons, hfailed⟩ := lintAnswer_of_isBlocked hblocked format
      rw [hfailed]
      rfl
    exact {
      le_two := fun _ => Ending.code_le _
      two_iff := fun format => iff_of_true (hcode format) hblocked
      one_iff := fun format => by simp [hcode, hblocked]
      summary := fun h => absurd hblocked h }
  · have hfree := hbegins.not_isBlocked
    obtain ⟨bytes, -, hparse⟩ := hbegins.parse
    obtain ⟨-, hpath, -⟩ := Document.parse_eq_ok.mp hparse
    have hcode (format : ReportFormat) : (lintAnswer path disabled format contents).ending.code =
        if 0 < (Violation.tally (set.check doc)).1 then 1 else 0 := by
      rw [(lintAnswer_of_begins hbegins format).2]
      split <;> rfl
    have hone (format : ReportFormat) :
        (lintAnswer path disabled format contents).ending.code = 1 ↔
          0 < (Violation.tally (set.check doc)).1 := by
      rw [hcode]
      split <;> simp [*]
    refine ⟨fun _ => Ending.code_le _, fun format => iff_of_false ?_ hfree, fun format => ?_,
      fun _ => ?_⟩
    · rw [hcode]
      split <;> decide
    · rw [hone, RuleSet.errors_pos, and_iff_right hfree, hbegins.document]
      simp [hbegins.mem_rules]
    · refine ⟨(set.check doc).map fun v => v.text ++ "\n", _,
        (Violation.tally (set.check doc)).2, ?_, hone⟩
      rw [(lintAnswer_of_begins hbegins .text).1, ← hpath]
      rfl

theorem fmtAnswer_isFixed :
    IsFixed path disabled contents fun check => fmtAnswer path disabled check contents := by
  rcases isBlocked_or_begins path disabled contents with hblocked | ⟨set, doc, hbegins⟩
  · have hcode (check : Bool) : (fmtAnswer path disabled check contents).ending.code = 2 := by
      obtain ⟨reasons, hfailed⟩ := fmtAnswer_of_isBlocked hblocked check
      rw [hfailed]
      rfl
    refine ⟨fun _ => Ending.code_le _, fun check => iff_of_true (hcode check) hblocked,
      fun h => absurd hblocked h, iff_of_false ?_ ?_, fun h => absurd hblocked h⟩
    · rw [hcode]
      decide
    · rintro ⟨content, hcontent⟩
      have hzero := congrArg Ending.code hcontent
      rw [hcode] at hzero
      cases hzero
  · have hfree := hbegins.not_isBlocked
    have hending (check : Bool) := (fmtAnswer_of_begins hbegins check).2
    have houtput (check : Bool) := (fmtAnswer_of_begins hbegins check).1
    refine ⟨fun _ => Ending.code_le _, fun check => iff_of_false ?_ hfree, fun _ => ?_, ?_,
      fun _ => ⟨_, _, _, houtput true, houtput false⟩⟩
    · rw [hending]
      cases (doc.runFixes set.fixes).changed <;> cases check <;> simp [Ending.code]
    · rw [hending]
      cases (doc.runFixes set.fixes).changed <;> rfl
    · rw [hending, hending]
      cases (doc.runFixes set.fixes).changed <;> simp [Ending.code]

/-- Statuses mean what they promise, for every file and whatever rules are disabled. -/
theorem answer_statuses (environment file : Option String) (disabled : List String)
    (contents : Contents) :
    IsLinted (Command.path file environment) disabled contents
        (fun format => answer environment contents (.lint file disabled format)) ∧
      IsFixed (Command.path file environment) disabled contents
        (fun check => answer environment contents (.fmt file disabled check)) :=
  ⟨lintAnswer_isLinted _ disabled contents, fmtAnswer_isFixed _ disabled contents⟩

end Command

end ProcessLint
