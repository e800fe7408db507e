import ProcessLint.Proofs.Document.Lookup
import ProcessLint.Proofs.Document.Names
import ProcessLint.Proofs.Document.Reading
import ProcessLint.Proofs.Rule.Sets

/-!
Fixes keep the processes of a document. They rewrite text without knowing what it means, so all
of this rests on the text being read again: what is kept of each attempt is a document with the
same processes, and an attempt that is not kept changes nothing for those that follow.
-/
namespace ProcessLint

namespace Document

/-- The second document is read from its own text under the same path, and has the same processes
in some order. -/
structure IsRewrite (before after : Document) : Prop where
  read : after.IsRead
  path : after.path = before.path
  processes : after.processes.Perm before.processes

namespace IsRewrite

theorem refl {doc : Document} (hread : doc.IsRead) : IsRewrite doc doc :=
  ⟨hread, rfl, .refl _⟩

theorem trans {first second third : Document} (h₁ : IsRewrite first second)
    (h₂ : IsRewrite second third) : IsRewrite first third :=
  ⟨h₂.read, h₂.path.trans h₁.path, h₂.processes.trans h₁.processes⟩

end IsRewrite

theorem nodup_names {doc : Document} (hread : doc.IsRead) : (doc.processes.map (·.name)).Nodup :=
  nodup_names_of_ofText hread

theorem changedProcess?_eq_none {before after : Document} :
    before.changedProcess? after = none ↔
      (∀ p ∈ before.processes, after.process? p.name = some p) ∧
        ∀ p ∈ after.processes, (before.process? p.name).isSome := by
  unfold changedProcess?
  simp [Option.isSome_iff_ne_none]

/-- The comparison is not symmetric, but where names are not repeated it finds every
difference. -/
theorem processes_perm {before after : Document} (hbefore : before.IsRead) (hafter : after.IsRead)
    (h : before.changedProcess? after = none) : after.processes.Perm before.processes := by
  obtain ⟨hkept, hadded⟩ := changedProcess?_eq_none.mp h
  have hbeforeNodup := List.Nodup.of_map _ (nodup_names hbefore)
  have hafterNodup := List.Nodup.of_map _ (nodup_names hafter)
  refine (List.perm_ext_iff_of_nodup hafterNodup hbeforeNodup).mpr fun p => ?_
  constructor
  · intro hp
    obtain ⟨q, hq⟩ := Option.isSome_iff_exists.mp (hadded p hp)
    obtain ⟨hqmem, hqname⟩ := mem_of_process? hq
    have hqafter := (mem_of_process? (hkept q hqmem)).1
    have hqp : q = p := List.inj_on_of_nodup_map (nodup_names hafter) hqafter hp hqname
    rw [← hqp]
    exact hqmem
  · intro hp
    exact (mem_of_process? (hkept p hp)).1

end Document

namespace Fix

open Document

/-- When an attempt is kept. -/
theorem attempt_eq_applied {fix : Fix} {doc fixed : Document} :
    fix.attempt doc = .applied fixed ↔
      fix.apply doc = .ok fixed.text ∧ fixed.text ≠ doc.text ∧
        fixed.IsRead ∧ fixed.path = doc.path ∧ doc.changedProcess? fixed = none := by
  constructor
  · intro h
    unfold attempt at h
    split at h
    · cases h
    · rename_i text happly
      by_cases htext : text = doc.text
      · rw [if_pos htext] at h
        cases h
      · rw [if_neg htext] at h
        split at h
        · cases h
        · rename_i read hread
          split at h
          · cases h
          · rename_i hsame
            cases h
            obtain ⟨hisRead, hpath, rfl⟩ := parseText_eq_ok.mp hread
            exact ⟨happly, htext, hisRead, hpath, hsame⟩
  · rintro ⟨happly, htext, hisRead, hpath, hsame⟩
    unfold attempt
    rw [happly]
    dsimp only
    rw [if_neg htext, parseText_eq_ok.mpr ⟨hisRead, hpath, rfl⟩]
    dsimp only
    rw [hsame]

theorem result_of_not_applied {attempt : Attempt} (doc : Document)
    (h : attempt.isApplied = false) : attempt.result doc = doc := by
  cases attempt with
  | applied fixed => cases h
  | _ => rfl

theorem isRewrite_result (fix : Fix) {doc : Document} (hread : doc.IsRead) :
    IsRewrite doc ((fix.attempt doc).result doc) := by
  cases hattempt : fix.attempt doc with
  | applied fixed =>
    obtain ⟨-, -, hfixed, hpath, hsame⟩ := attempt_eq_applied.mp hattempt
    exact ⟨hfixed, hpath, processes_perm hread hfixed hsame⟩
  | _ => exact .refl hread

end Fix

namespace Document

theorem runFixes_cons (doc : Document) (fix : Fix) (fixes : List Fix) :
    doc.runFixes (fix :: fixes) =
      { ((fix.attempt doc).result doc).runFixes fixes with
        attempts := (fix, fix.attempt doc) ::
          (((fix.attempt doc).result doc).runFixes fixes).attempts } := rfl

theorem runFixes_fixes (fixes : List Fix) :
    ∀ doc : Document, (doc.runFixes fixes).attempts.map (·.1) = fixes := by
  induction fixes with
  | nil => exact fun _ => rfl
  | cons fix fixes ih =>
    intro doc
    rw [runFixes_cons, List.map_cons, ih]

theorem isRewrite_runFixes (fixes : List Fix) :
    ∀ doc : Document, doc.IsRead → IsRewrite doc (doc.runFixes fixes).document := by
  induction fixes with
  | nil => exact fun doc hread => .refl hread
  | cons fix fixes ih =>
    intro doc hread
    have hstep := fix.isRewrite_result hread
    exact hstep.trans (ih _ hstep.read)

/-- Fixes that are not applied may be left out, all or some of them. -/
theorem runFixes_filter (keep : Fix → Bool) (fixes : List Fix) :
    ∀ doc : Document,
      (∀ tried ∈ (doc.runFixes fixes).attempts, tried.2.isApplied → keep tried.1) →
      (doc.runFixes (fixes.filter keep)).document = (doc.runFixes fixes).document := by
  induction fixes with
  | nil => exact fun _ _ => rfl
  | cons fix fixes ih =>
    intro doc hkeep
    rw [runFixes_cons] at hkeep
    have hrest := ih _ fun tried hmem => hkeep tried (List.mem_cons_of_mem _ hmem)
    by_cases hfix : keep fix
    · rw [List.filter_cons_of_pos hfix, runFixes_cons, runFixes_cons]
      exact hrest
    · -- What is left out was not applied, so the others start from the same document.
      have hnot : (fix.attempt doc).isApplied = false := by
        by_contra happlied
        exact hfix (hkeep _ (List.mem_cons_self ..) (by simpa using happlied))
      rw [Fix.result_of_not_applied doc hnot] at hrest
      rw [List.filter_cons_of_neg hfix, runFixes_cons, Fix.result_of_not_applied doc hnot]
      exact hrest

theorem runFixes_unchanged {doc : Document} {fixes : List Fix}
    (h : (doc.runFixes fixes).changed = false) : (doc.runFixes fixes).document = doc := by
  have hnone : ∀ tried ∈ (doc.runFixes fixes).attempts, tried.2.isApplied → false = true := by
    intro tried hmem happlied
    exact absurd (List.any_eq_false.mp h tried hmem) (not_not_intro happlied)
  have hleft := runFixes_filter (fun _ => false) fixes doc hnone
  rw [List.filter_false] at hleft
  exact hleft.symm

/-- What fixes come to can be read again. -/
theorem parse_content {path : String} {bytes : ByteArray} {doc : Document}
    (h : parse path bytes = .ok doc) (fixes : List Fix) :
    parse path (doc.runFixes fixes).content.toUTF8 = .ok (doc.runFixes fixes).document := by
  obtain ⟨hread, hpath, -⟩ := parse_eq_ok.mp h
  have hrewrite := isRewrite_runFixes fixes doc hread
  exact parse_eq_ok.mpr ⟨hrewrite.read, hrewrite.path.trans hpath, rfl⟩

end Document

namespace FixReport

/-- The names of the fixes that were not applied. -/
def idleNames (report : FixReport) : List String :=
  (report.attempts.filter (!·.2.isApplied)).map (·.1.name)

end FixReport

namespace RuleSet

theorem fix_of_parse (set : RuleSet) {path : String} {bytes : ByteArray} {doc : Document}
    (h : Document.parse path bytes = .ok doc) :
    set.fix path bytes = .ok (doc.runFixes set.fixes) := by
  unfold fix
  rw [h]
  rfl

theorem fix_eq_ok {set : RuleSet} {path : String} {bytes : ByteArray} {report : FixReport}
    (h : set.fix path bytes = .ok report) :
    ∃ doc, Document.parse path bytes = .ok doc ∧ report = doc.runFixes set.fixes := by
  obtain ⟨doc, hparse, h⟩ := bind_eq_ok h
  cases h
  exact ⟨doc, hparse, rfl⟩

/-- Without the fixes that were not applied the outcome is the same. -/
theorem without_idle (set : RuleSet) (doc : Document) :
    ∃ rest, set.without (doc.runFixes set.fixes).idleNames = .ok rest ∧
      (doc.runFixes rest.fixes).document = (doc.runFixes set.fixes).document := by
  have htried := Document.runFixes_fixes set.fixes doc
  generalize hattempts : (doc.runFixes set.fixes).attempts = attempts at htried
  let idle := (attempts.filter (!·.2.isApplied)).map (·.1)
  obtain ⟨rest, hrest, hfixes⟩ := set.without_fixes idle
  refine ⟨rest, ?_, ?_⟩
  · rw [FixReport.idleNames, hattempts, ← hrest, List.map_map]
    rfl
  · rw [hfixes]
    refine Document.runFixes_filter (fun fix => decide (fix ∉ idle)) set.fixes doc ?_
    rw [hattempts]
    intro tried htriedMem happlied
    -- No fix is tried twice, so one that was applied is not also among those that were not.
    have hnodup : (attempts.map (·.1)).Nodup := htried ▸ set.nodup_fixes
    refine decide_eq_true fun hidle => ?_
    obtain ⟨other, hother, hsame⟩ := List.mem_map.mp hidle
    obtain ⟨hotherMem, hotherIdle⟩ := List.mem_filter.mp hother
    have heq : other = tried := List.inj_on_of_nodup_map hnodup hotherMem htriedMem hsame
    rw [heq, happlied] at hotherIdle
    cases hotherIdle

/-- Fixing fails only where reading fails, and with the same error. Otherwise every fix of the set
is tried once, in the order of all rules; the outcome can be read again and has the same processes,
is the very same text if nothing was applied, and is the same without the fixes that were not. -/
theorem fix_safe (set : RuleSet) (path : String) (bytes : ByteArray) :
    match Document.parse path bytes with
    | .error error => set.fix path bytes = .error error
    | .ok doc => ∃ report, set.fix path bytes = .ok report ∧
        report.attempts.map (·.1) = (Rule.all.filter (· ∈ set.rules)).filterMap Rule.fix? ∧
        Document.parse path report.content.toUTF8 = .ok report.document ∧
        report.document.processes.Perm doc.processes ∧
        (report.changed = false → report.content.toUTF8 = bytes) ∧
        ∃ rest again, set.without report.idleNames = .ok rest ∧
          rest.fix path bytes = .ok again ∧ again.content = report.content := by
  split
  · rename_i error herror
    unfold fix
    rw [herror]
    rfl
  · rename_i doc hparse
    obtain ⟨hread, -, hbytes⟩ := Document.parse_eq_ok.mp hparse
    have hrewrite := Document.isRewrite_runFixes set.fixes doc hread
    refine ⟨doc.runFixes set.fixes, set.fix_of_parse hparse, ?_,
      Document.parse_content hparse set.fixes, hrewrite.processes, ?_, ?_⟩
    · rw [Document.runFixes_fixes, set.fixes_eq_filterMap]
    · intro hunchanged
      rw [FixReport.content, Document.runFixes_unchanged hunchanged, hbytes]
    · obtain ⟨rest, hrest, hsame⟩ := set.without_idle doc
      exact ⟨rest, doc.runFixes rest.fixes, hrest, rest.fix_of_parse hparse,
        congrArg Document.text hsame⟩

end RuleSet

end ProcessLint
