import ProcessLint.Proofs.Fix.Safety

/-!
Fixing what was fixed. A fix looks at lines but is judged by what is read from them, so it may be
applied and still leave what its rule found: then it is applied again and again. If every fix that
is applied does mend what its rule found, a second run changes nothing, unless sorting has emptied
the version.
-/
namespace ProcessLint

section Checks

theorem checkVersion_eq_nil {doc : Document} : checkVersion doc = [] ↔ doc.version ≠ "" := by
  unfold checkVersion
  by_cases hversion : doc.version = "" <;> simp [hversion]

theorem firstInversion_eq_none : ∀ names : List String,
    firstInversion names = none ↔ names.IsChain (· ≤ ·)
  | [] => by simp [firstInversion]
  | [_] => by simp [firstInversion]
  | before :: after :: rest => by
    rw [firstInversion, List.isChain_cons_cons, ← firstInversion_eq_none (after :: rest)]
    by_cases hlt : after < before
    · simp [hlt, String.not_le.mpr hlt]
    · simp [hlt, String.not_lt.mp hlt]

theorem checkOrder_eq_nil {doc : Document} :
    checkOrder doc = [] ↔ firstInversion doc.processOrder = none := by
  unfold checkOrder
  cases firstInversion doc.processOrder <;> simp

theorem Rule.check_eq_nil {rule : Rule} {doc : Document} :
    rule.check doc = [] ↔ rule.findings doc = [] :=
  List.map_eq_nil_iff

end Checks

namespace Fix

variable (fix : Fix) (doc : Document)

/-- Where its rule finds nothing, a fix leaves the text as it is. -/
theorem attempt_eq_clean (h : fix.rule.check doc = []) : fix.attempt doc = .clean := by
  have happly : fix.apply doc = .ok doc.text := by
    cases fix with
    | version => exact if_pos (checkVersion_eq_nil.mp (Rule.check_eq_nil.mp h))
    | sortProcesses => exact if_pos (checkOrder_eq_nil.mp (Rule.check_eq_nil.mp h))
  unfold attempt
  rw [happly]
  exact if_pos rfl

theorem not_applied_of_check (h : fix.rule.check doc = []) :
    (fix.attempt doc).isApplied = false := by
  rw [attempt_eq_clean fix doc h]
  rfl

/-- A fix that mends what it is applied for is not applied to its own outcome. -/
theorem not_applied_result
    (h : (fix.attempt doc).isApplied →
      fix.rule.check ((fix.attempt doc).result doc) = []) :
    (fix.attempt ((fix.attempt doc).result doc)).isApplied = false := by
  by_cases happlied : (fix.attempt doc).isApplied
  · exact not_applied_of_check fix _ (h happlied)
  · have hnot : (fix.attempt doc).isApplied = false := by simpa using happlied
    rw [result_of_not_applied doc hnot]
    exact hnot

end Fix

namespace FixReport

/-- The fix was tried and its outcome kept. -/
def Applied (report : FixReport) (fix : Fix) : Prop :=
  ∃ attempt, (fix, attempt) ∈ report.attempts ∧ attempt.isApplied = true

/-- What every applied fix was applied for is mended. -/
def IsTruthful (report : FixReport) : Prop :=
  ∀ fix, report.Applied fix → fix.rule.check report.document = []

end FixReport

namespace Document

theorem runFixes_changed_eq_false (fixes : List Fix) :
    ∀ doc : Document, (doc.runFixes fixes).changed = false ↔
      ∀ fix ∈ fixes, (fix.attempt doc).isApplied = false := by
  induction fixes with
  | nil =>
    intro doc
    simp [runFixes, FixReport.changed]
  | cons fix fixes ih =>
    intro doc
    have hchanged : (doc.runFixes (fix :: fixes)).changed =
        ((fix.attempt doc).isApplied ||
          (((fix.attempt doc).result doc).runFixes fixes).changed) := rfl
    rw [hchanged, Bool.or_eq_false_iff, List.forall_mem_cons, ih]
    constructor
    · rintro ⟨hnot, hrest⟩
      rw [Fix.result_of_not_applied doc hnot] at hrest
      exact ⟨hnot, hrest⟩
    · rintro ⟨hnot, hrest⟩
      rw [Fix.result_of_not_applied doc hnot]
      exact ⟨hnot, hrest⟩

/-- The last fix is stable if it mends what it is applied for. -/
theorem not_applied_last (fix : Fix) (doc : Document)
    (h : (doc.runFixes [fix]).Applied fix → fix.rule.check (doc.runFixes [fix]).document = []) :
    (fix.attempt (doc.runFixes [fix]).document).isApplied = false :=
  Fix.not_applied_result fix doc fun happlied => h ⟨_, List.mem_singleton_self _, happlied⟩

end Document

namespace RuleSet

/-- A run in which only the version is added. -/
theorem fix_all_of_version {doc fixed : Document} (hdoc : doc.IsRead) (hfixed : fixed.IsRead)
    (hpath : fixed.path = doc.path) (happly : Fix.version.apply doc = .ok fixed.text)
    (htext : fixed.text ≠ doc.text) (hsame : doc.changedProcess? fixed = none)
    (horder : Rule.sortProcesses.check fixed = []) :
    RuleSet.all.fix doc.path doc.text.toUTF8 =
      .ok ⟨fixed, [(.version, .applied fixed), (.sortProcesses, .clean)]⟩ := by
  have hversion : Fix.version.attempt doc = .applied fixed :=
    Fix.attempt_eq_applied.mpr ⟨happly, htext, hfixed, hpath, hsame⟩
  have hsort : Fix.sortProcesses.attempt fixed = .clean := Fix.attempt_eq_clean _ _ horder
  have hfixes : RuleSet.all.fixes = [.version, .sortProcesses] := by decide
  rw [RuleSet.all.fix_of_parse (Document.parse_eq_ok.mpr ⟨hdoc, rfl, rfl⟩), hfixes]
  simp only [Document.runFixes, hversion, Attempt.result, hsort]

/-- Fixing the outcome of a report again changes nothing, and the report claims nothing that is
not so. -/
def IsSettled (set : RuleSet) (path : String) (report : FixReport) : Prop :=
  (∃ again, set.fix path report.content.toUTF8 = .ok again ∧ again.content = report.content ∧
    again.changed = false) ∧ report.IsTruthful

/-- No fix would be applied to the outcome of a report. -/
def IsStable (set : RuleSet) (report : FixReport) : Prop :=
  ∀ fix ∈ set.fixes, (fix.attempt report.document).isApplied = false

theorem isSettled_iff_isStable {set : RuleSet} {path : String} {bytes : ByteArray}
    {report : FixReport} (h : set.fix path bytes = .ok report) :
    set.IsSettled path report ↔ set.IsStable report ∧ report.IsTruthful := by
  obtain ⟨doc, hparse, rfl⟩ := fix_eq_ok h
  have hagain := set.fix_of_parse (Document.parse_content hparse set.fixes)
  refine and_congr_left fun _ => ?_
  rw [IsStable, ← Document.runFixes_changed_eq_false]
  constructor
  · rintro ⟨again, hok, -, hunchanged⟩
    rw [hagain] at hok
    cases hok
    exact hunchanged
  · intro hunchanged
    exact ⟨_, hagain, congrArg Document.text (Document.runFixes_unchanged hunchanged), hunchanged⟩

/-- A report that claims nothing that is not so is stable, unless sorting has left a document that
lacks a version and to which one can be added. -/
theorem isStable_of_isTruthful (set : RuleSet) (doc : Document)
    (htruthful : (doc.runFixes set.fixes).IsTruthful)
    (hversion : (doc.runFixes set.fixes).Applied .sortProcesses → Fix.version ∈ set.fixes →
      (doc.runFixes set.fixes).document.version = "" →
      (Fix.version.attempt (doc.runFixes set.fixes).document).isApplied = false) :
    set.IsStable (doc.runFixes set.fixes) := by
  unfold IsStable
  rcases set.fixes_cases with hfixes | hfixes | hfixes | hfixes <;>
    rw [hfixes] at htruthful hversion ⊢
  · simp
  · exact List.forall_mem_singleton.mpr
      (Document.not_applied_last .version doc fun h => htruthful _ h)
  · exact List.forall_mem_singleton.mpr
      (Document.not_applied_last .sortProcesses doc fun h => htruthful _ h)
  · -- Sorting comes last, so it is stable; the version is unless sorting was applied after it.
    let middle := (Fix.version.attempt doc).result doc
    have hsort : (Fix.sortProcesses.attempt
        (doc.runFixes [.version, .sortProcesses]).document).isApplied = false :=
      Document.not_applied_last .sortProcesses middle fun ⟨attempt, hmem, happlied⟩ =>
        htruthful _ ⟨attempt, List.mem_cons_of_mem _ hmem, happlied⟩
    refine List.forall_mem_cons.mpr ⟨?_, List.forall_mem_singleton.mpr hsort⟩
    by_cases happlied : (Fix.sortProcesses.attempt middle).isApplied
    · have hsorted : (doc.runFixes [.version, .sortProcesses]).Applied .sortProcesses :=
        ⟨_, List.mem_cons_of_mem _ (List.mem_singleton_self _), happlied⟩
      by_cases hempty : (doc.runFixes [.version, .sortProcesses]).document.version = ""
      · exact hversion hsorted (List.mem_cons_self ..) hempty
      · refine Fix.not_applied_of_check .version _ (Rule.check_eq_nil.mpr ?_)
        exact checkVersion_eq_nil.mpr hempty
    · have hsame : (doc.runFixes [.version, .sortProcesses]).document = middle :=
        Fix.result_of_not_applied middle (by simpa using happlied)
      rw [hsame]
      refine Fix.not_applied_result .version doc fun hfirst => ?_
      have hchecked := htruthful .version ⟨_, List.mem_cons_self .., hfirst⟩
      rwa [hsame] at hchecked

/-- When running fixes again changes nothing and no report claims what is not so: just when an
applied version is read as one, and sorted processes are read in order and, if the version is
empty then, leave it such that it cannot be fixed. -/
theorem isSettled_iff {set : RuleSet} {path : String} {bytes : ByteArray} {report : FixReport}
    (h : set.fix path bytes = .ok report) :
    set.IsSettled path report ↔
      (report.Applied .version → report.document.version ≠ "") ∧
      (report.Applied .sortProcesses →
        report.document.processOrder.IsChain (· ≤ ·) ∧
          (Fix.version ∈ set.fixes → report.document.version = "" →
            (Fix.version.attempt report.document).isApplied = false)) := by
  rw [isSettled_iff_isStable h]
  have hversion : Rule.version.check report.document = [] ↔ report.document.version ≠ "" :=
    Rule.check_eq_nil.trans checkVersion_eq_nil
  have horder : Rule.sortProcesses.check report.document = [] ↔
      report.document.processOrder.IsChain (· ≤ ·) :=
    Rule.check_eq_nil.trans (checkOrder_eq_nil.trans (firstInversion_eq_none _))
  constructor
  · rintro ⟨hstable, htruthful⟩
    refine ⟨fun happlied => hversion.mp (htruthful _ happlied), fun happlied => ?_⟩
    exact ⟨horder.mp (htruthful _ happlied), fun hmem _ => hstable _ hmem⟩
  · rintro ⟨hmended, hsorted⟩
    have htruthful : report.IsTruthful := by
      intro fix happlied
      cases fix with
      | version => exact hversion.mpr (hmended happlied)
      | sortProcesses => exact horder.mpr (hsorted happlied).1
    refine ⟨?_, htruthful⟩
    obtain ⟨doc, -, rfl⟩ := fix_eq_ok h
    exact set.isStable_of_isTruthful doc htruthful fun happlied => (hsorted happlied).2

end RuleSet

section Examples

set_option maxRecDepth 20000

/-- A document whose only key is not known. -/
def Document.unversioned : Document :=
  ⟨"p", "", [], "a:\n", ⟨[(["a"], ⟨1, 1⟩)]⟩, []⟩

def Document.versioned : Document :=
  ⟨"p", "0.5", [], "version: \"0.5\"\na:\n", ⟨[(["version"], ⟨1, 1⟩), (["a"], ⟨2, 1⟩)]⟩, []⟩

theorem isSettled_unversioned :
    ∃ report, RuleSet.all.fix "p" Document.unversioned.text.toUTF8 = .ok report ∧
      report.Applied .version ∧ RuleSet.all.IsSettled "p" report := by
  have hdoc : Document.unversioned.IsRead := by
    rw [Document.isRead_iff_toOption]
    decide +kernel
  have hfixed : Document.versioned.IsRead := by
    rw [Document.isRead_iff_toOption]
    decide +kernel
  have hfix := RuleSet.fix_all_of_version hdoc hfixed rfl (by decide +kernel) (by decide +kernel)
    (by decide +kernel) (by decide +kernel)
  refine ⟨_, hfix, ⟨_, List.mem_cons_self .., rfl⟩, ?_⟩
  refine (RuleSet.isSettled_iff hfix).mpr ⟨fun _ => by decide +kernel, ?_⟩
  rintro ⟨attempt, hmem, happlied⟩
  simp at hmem
  rw [hmem] at happlied
  cases happlied

/-- An empty document, and behind its end some versions. -/
def Document.endedBefore (versions : Nat) : Document :=
  ⟨"p", "", [],
    "---\n---\n" ++ String.join (List.replicate versions "version: \"0.5\"\n"), ⟨[]⟩, []⟩

private theorem isRead_endedBefore : ∀ n < 3, (Document.endedBefore n).IsRead := by
  simp only [Document.isRead_iff_toOption]
  decide +kernel

private theorem fix_endedBefore : ∀ n < 2,
    RuleSet.all.fix "p" (Document.endedBefore n).text.toUTF8 =
      .ok ⟨.endedBefore (n + 1),
        [(.version, .applied (.endedBefore (n + 1))), (.sortProcesses, .clean)]⟩ := by
  intro n hn
  have hstep : ∀ n < 2,
      Fix.version.apply (.endedBefore n) = .ok (Document.endedBefore (n + 1)).text ∧
      (Document.endedBefore (n + 1)).text ≠ (Document.endedBefore n).text ∧
      (Document.endedBefore n).changedProcess? (.endedBefore (n + 1)) = none ∧
      Rule.sortProcesses.check (.endedBefore (n + 1)) = [] := by
    decide +kernel
  obtain ⟨happly, htext, hsame, horder⟩ := hstep n hn
  exact RuleSet.fix_all_of_version (isRead_endedBefore n (by omega))
    (isRead_endedBefore (n + 1) (by omega)) rfl happly htext hsame horder

/-- Behind an empty document a version is added with every run, and none is ever read. -/
theorem not_isSettled_endedBefore :
    ∃ report again, RuleSet.all.fix "p" "---\n---\n".toUTF8 = .ok report ∧
      report.Applied .version ∧ Rule.version.check report.document ≠ [] ∧
      RuleSet.all.fix "p" report.content.toUTF8 = .ok again ∧
      again.content ≠ report.content ∧ ¬ RuleSet.all.IsSettled "p" report := by
  have hfound : Rule.version.check (.endedBefore 1) ≠ [] := by decide +kernel
  refine ⟨_, _, fix_endedBefore 0 (by omega), ⟨_, List.mem_cons_self .., rfl⟩, hfound,
    fix_endedBefore 1 (by omega), ?_, ?_⟩
  · show (Document.endedBefore 2).text ≠ (Document.endedBefore 1).text
    decide +kernel
  · rintro ⟨-, htruthful⟩
    exact hfound (htruthful .version ⟨_, List.mem_cons_self .., rfl⟩)

end Examples

end ProcessLint
