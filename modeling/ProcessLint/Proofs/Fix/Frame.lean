import ProcessLint.Proofs.Document.Fields
import ProcessLint.Proofs.Fix.Sorted
import ProcessLint.Proofs.Fix.Stability

/-!
What fixes leave of the fields that are not processes. Only the processes are compared, so the files
and the version are what is read for them anew. They are kept where their entries are read as they
were, and no alias stands in these. But the line that is written for a version is found by a number
that the scanner has counted, with returns that are no ends of lines; it may be that of another
field. And an alias may stand for another value when the entries of the processes have moved.
-/
namespace ProcessLint

open RawDocument Yaml.Content

/-- The files are the same, and so is the version unless there was none. -/
def FixReport.KeepsFields (report : FixReport) (doc : Document) : Prop :=
  report.document.envFiles = doc.envFiles ∧
    (doc.version ≠ "" → report.document.version = doc.version)

namespace RuleSet

/-- A run in which the processes are only sorted. -/
theorem fix_all_of_sort {doc fixed : Document} (hdoc : doc.IsRead) (hfixed : fixed.IsRead)
    (hpath : fixed.path = doc.path) (happly : Fix.sortProcesses.apply doc = .ok fixed.text)
    (htext : fixed.text ≠ doc.text) (hsame : doc.changedProcess? fixed = none)
    (hversion : Rule.version.check doc = []) :
    RuleSet.all.fix doc.path doc.text.toUTF8 =
      .ok ⟨fixed, [(.version, .clean), (.sortProcesses, .applied fixed)]⟩ := by
  have hclean : Fix.version.attempt doc = .clean := Fix.attempt_eq_clean _ _ hversion
  have hsort : Fix.sortProcesses.attempt doc = .applied fixed :=
    Fix.attempt_eq_applied.mpr ⟨happly, htext, hfixed, hpath, hsame⟩
  have hfixes : RuleSet.all.fixes = [.version, .sortProcesses] := by decide
  rw [RuleSet.all.fix_of_parse (Document.parse_eq_ok.mpr ⟨hdoc, rfl, rfl⟩), hfixes]
  simp only [Document.runFixes, hclean, Attempt.result, hsort]

end RuleSet

section Examples

set_option maxRecDepth 20000

/-- Two processes below a version and a file. -/
def Document.declared (first second : String) : Document where
  path := "p"
  version := "v"
  envFiles := ["x"]
  text := "version: v\nenv_file: x\nprocesses:\n  " ++ first ++ ":\n  " ++ second ++ ":\n"
  sourceMap := ⟨[(["version"], ⟨1, 1⟩), (["env_file"], ⟨2, 1⟩), (["processes"], ⟨3, 1⟩),
    (["processes", first], ⟨4, 3⟩), (["processes", second], ⟨5, 3⟩)]⟩
  processes := [.named first, .named second]

/-- Two processes that give one name to their values; below them it stands for the later one. -/
def Document.aliased (first second : String × String) : Document where
  path := "p"
  version := second.2
  envFiles := [second.2]
  text := "processes:\n  " ++ first.1 ++ ": \x7bk: &x " ++ first.2 ++ "\x7d\n  " ++ second.1 ++
    ": \x7bk: &x " ++ second.2 ++ "\x7d\nenv_file: *x\nversion: *x\n"
  sourceMap := ⟨[(["processes"], ⟨1, 1⟩), (["processes", first.1], ⟨2, 3⟩),
    (["processes", first.1, "k"], ⟨2, 7⟩), (["processes", second.1], ⟨3, 3⟩),
    (["processes", second.1, "k"], ⟨3, 7⟩), (["env_file"], ⟨4, 1⟩), (["version"], ⟨5, 1⟩)]⟩
  processes := [.named first.1, .named second.1]

def Document.unsortedAlias : Document := .aliased ("b", "p") ("a", "q")

def Document.sortedAlias : Document := .aliased ("a", "q") ("b", "p")

open Fix.Order in
private theorem fix_unsortedAlias :
    RuleSet.all.fix "p" Document.unsortedAlias.text.toUTF8 =
      .ok ⟨.sortedAlias, [(.version, .clean), (.sortProcesses, .applied .sortedAlias)]⟩ := by
  have hread : Document.unsortedAlias.IsRead ∧ Document.sortedAlias.IsRead := by
    simp only [Document.isRead_iff_toOption]
    decide +kernel
  have hinversion : firstInversion Document.unsortedAlias.processOrder ≠ none := by decide +kernel
  have hentries : entries Document.unsortedAlias.bareLines 0 [("b", 1), ("a", 2)] =
      [⟨"b", 1, 2⟩, ⟨"a", 2, 3⟩] := by decide +kernel
  have happly : apply .unsortedAlias = .ok Document.sortedAlias.text := by
    rw [apply_pair hinversion (by decide +kernel) (by decide +kernel) hentries (by decide +kernel)]
    decide +kernel
  have hfix := RuleSet.fix_all_of_sort hread.1 hread.2 rfl happly (by decide +kernel)
    (by decide +kernel) (by decide +kernel)
  exact hfix

/-- An entry that is read as it was, event for event, may have another value if it is an alias. -/
theorem not_keepsFields_aliased :
    ∃ doc report, Document.parse "p" Document.unsortedAlias.text.toUTF8 = .ok doc ∧
      RuleSet.all.fix "p" Document.unsortedAlias.text.toUTF8 = .ok report ∧
      doc.version = "q" ∧ report.document.version = "p" ∧
      doc.envFiles = ["q"] ∧ report.document.envFiles = ["p"] ∧ ¬ report.KeepsFields doc := by
  have hread : Document.unsortedAlias.IsRead := by
    rw [Document.isRead_iff_toOption]
    decide +kernel
  refine ⟨_, _, Document.parse_eq_ok.mpr ⟨hread, rfl, rfl⟩, fix_unsortedAlias, rfl, rfl, rfl, rfl, ?_⟩
  rintro ⟨hfiles, -⟩
  have hother : Document.sortedAlias.envFiles ≠ Document.unsortedAlias.envFiles := by
    decide +kernel
  exact hother hfiles

end Examples

end ProcessLint
