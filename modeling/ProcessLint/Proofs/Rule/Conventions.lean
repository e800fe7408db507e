import ProcessLint.Proofs.Postcondition
import ProcessLint.Proofs.Rule.Reports
import ProcessLint.Proofs.Text.Split
import ProcessLint.Proofs.Text.Words

/-!
Commands for the task runner. A command is accepted just if its first word that is no option, behind
the word `task`, has two segments or more, and the last of them is the action that is asked for,
alone or with a qualifier. What is said of a command that is not accepted is true of it.
-/
namespace ProcessLint.Task

open Text

/-- Letters and digits of ASCII, underscores, points and dashes; one of these or more. -/
def IsSegment (segment : List Char) : Prop :=
  segment ≠ [] ∧ ∀ c ∈ segment, c.isAlphanum = true ∨ c ∈ ['_', '.', '-']

/-- The action alone, or a qualifier behind it. -/
def Performs (action segment : List Char) : Prop :=
  segment = action ∨ ∃ rest, segment = action ++ '-' :: rest ∨ segment = action ++ '_' :: rest

/-- Options may stand between the word `task` and the target, and anything behind it. -/
def HasTarget (command target : List Char) : Prop :=
  ∃ options rest, HasWords command ("task".toList :: (options ++ target :: rest)) ∧
    (∀ option ∈ options, option.head? = some '-') ∧ target.head? ≠ some '-'

/-- Segments with colons between them. -/
def AreJoined (segments : List (List Char)) (target : List Char) : Prop :=
  (∀ segment ∈ segments, IsSegment segment) ∧ target = [':'].intercalate segments

/-- The last segment, which is not the only one, is the action. -/
def EndsWith (action target : List Char) : Prop :=
  ∃ front last, front ≠ [] ∧ AreJoined (front ++ [last]) target ∧ Performs action last

/-- Commands that run the action of a target. -/
def Follows (action command : List Char) : Prop :=
  ∃ target, HasTarget command target ∧ EndsWith action target

/-- What keeps a command from running the action. -/
inductive Deviates (action command : List Char) : Mismatch → Prop
  | notTask {found : List (List Char)} : HasWords command found →
      found.head? ≠ some "task".toList → Deviates action command .notTask
  | missingTarget {options : List (List Char)} : HasWords command ("task".toList :: options) →
      (∀ option ∈ options, option.head? = some '-') → Deviates action command .missingTarget
  | badTarget {target : List Char} : HasTarget command target →
      (∀ segments, segments ≠ [] → ¬ AreJoined segments target) →
      Deviates action command (.badTarget target)
  | wrongAction {target : List Char} : HasTarget command target → ¬ EndsWith action target →
      Deviates action command (.wrongAction target)

variable {action command target segment : List Char} {mismatch : Mismatch}

section Parts

theorem isSegmentChar_iff {c : Char} :
    isSegmentChar c = true ↔ c.isAlphanum = true ∨ c ∈ ['_', '.', '-'] := by
  have hupper : c.isUpper = true ↔ 'A' ≤ c ∧ c ≤ 'Z' := decide_eq_true_iff
  have hlower : c.isLower = true ↔ 'a' ≤ c ∧ c ≤ 'z' :=
    Bool.and_eq_true_iff.trans (and_congr decide_eq_true_iff decide_eq_true_iff)
  have hletter : c.isAlphanum = (c.isUpper || c.isLower || isDigit c) := rfl
  simp only [isSegmentChar, hletter, hupper, hlower, Bool.or_eq_true, Bool.and_eq_true,
    decide_eq_true_eq, List.mem_cons, List.not_mem_nil, or_false]
  tauto

theorem colon_notMem (h : IsSegment segment) : ':' ∉ segment := by
  intro hmem
  rcases h.2 ':' hmem with hletter | hmark
  · cases hletter
  · simp at hmark

theorem isTarget_iff :
    isTarget target = true ↔ ∃ segments, segments ≠ [] ∧ AreJoined segments target := by
  have hsegment : ∀ segment : List Char,
      (!segment.isEmpty && segment.all isSegmentChar) = true ↔ IsSegment segment := by
    intro segment
    simp only [IsSegment, Bool.and_eq_true, Bool.not_eq_true', List.isEmpty_eq_false_iff,
      List.all_eq_true, isSegmentChar_iff]
  unfold isTarget
  simp only [List.all_eq_true, hsegment]
  constructor
  · intro h
    exact ⟨_, List.splitOn_ne_nil ':' target, h, (List.intercalate_splitOn ':').symm⟩
  · rintro ⟨segments, hne, hsegments, rfl⟩
    rwa [List.splitOn_intercalate ':' (fun s hs => colon_notMem (hsegments s hs)) hne]

theorem isAction_iff : isAction action segment = true ↔ Performs action segment := by
  unfold isAction Performs
  cases hstrip : stripStart? action segment with
  | none =>
    refine iff_of_false Bool.false_ne_true ?_
    have hnot : ∀ rest, segment ≠ action ++ rest := by
      rintro rest rfl
      rw [stripStart?_append] at hstrip
      cases hstrip
    rintro (hsame | ⟨rest, hdash | hunderscore⟩)
    · exact hnot [] (by rw [hsame, List.append_nil])
    · exact hnot _ hdash
    · exact hnot _ hunderscore
  | some rest =>
    have hsegment := stripStart?_eq_some hstrip
    subst hsegment
    cases rest with
    | nil => simp
    | cons c rest => simp [exists_or]

theorem target_eq_ok : Task.target command = .ok target ↔ HasTarget command target := by
  constructor
  · intro h
    have hwords : HasWords command (words command) := words_eq_iff.mp rfl
    unfold Task.target at h
    generalize words command = found at h hwords
    cases found with
    | nil => cases h
    | cons first rest =>
      dsimp only at h
      split at h
      · cases h
      · rename_i hfirst
        rw [not_not.mp hfirst] at hwords
        split at h
        · rename_i found hfind
          cases h
          obtain ⟨hfound, options, behind, rfl, hoptions⟩ := List.find?_eq_some_iff_append.mp hfind
          exact ⟨options, behind, hwords, by simpa using hoptions, by simpa using hfound⟩
        · cases h
  · rintro ⟨options, rest, hwords, hoptions, htarget⟩
    have hfind : (options ++ target :: rest).find? (·.head? ≠ some '-') = some target :=
      List.find?_eq_some_iff_append.mpr
        ⟨by simpa using htarget, options, rest, rfl, by simpa using hoptions⟩
    unfold Task.target
    rw [words_eq_iff.mpr hwords]
    dsimp only
    rw [if_neg (not_not.mpr rfl), hfind]

theorem deviates_of_target (h : Task.target command = .error mismatch) :
    Deviates action command mismatch := by
  have hwords : HasWords command (words command) := words_eq_iff.mp rfl
  unfold Task.target at h
  generalize words command = found at h hwords
  cases found with
  | nil =>
    cases h
    exact .notTask hwords (by simp)
  | cons first rest =>
    dsimp only at h
    split at h
    · rename_i hfirst
      cases h
      exact .notTask hwords (by simpa using hfirst)
    · rename_i hfirst
      rw [not_not.mp hfirst] at hwords
      split at h
      · cases h
      · rename_i hnone
        cases h
        exact .missingTarget hwords (by simpa using List.find?_eq_none.mp hnone)

/-- The segment behind the last colon is the last one, and there is a colon if it is not alone. -/
theorem endsWith_iff (h : isTarget target = true) :
    EndsWith action target ↔ ∃ before last, splitLast ':' target = some (before, last) ∧
      isAction action last = true := by
  have hsplit {front : List (List Char)} {last : List Char} (hfront : front ≠ [])
      (hjoined : AreJoined (front ++ [last]) target) :
      splitLast ':' target = some ([':'].intercalate front, last) := by
    obtain ⟨hsegments, rfl⟩ := hjoined
    rw [intercalate_append_left _ hfront, List.flatMap_singleton, List.singleton_append]
    exact splitLast_append (colon_notMem (hsegments last (by simp))) _
  constructor
  · rintro ⟨front, last, hfront, hjoined, hperforms⟩
    exact ⟨_, last, hsplit hfront hjoined, isAction_iff.mpr hperforms⟩
  · rintro ⟨before, last, hlast, haction⟩
    obtain ⟨segments, hne, hjoined⟩ := isTarget_iff.mp h
    rw [← List.dropLast_append_getLast hne] at hjoined
    by_cases hfront : segments.dropLast = []
    · -- A single segment has no colon in it.
      obtain ⟨hsegments, rfl⟩ := hjoined
      rw [hfront, List.nil_append, List.intercalate_singleton,
        splitLast_eq_none.mpr (colon_notMem (hsegments _ (by simp)))] at hlast
      cases hlast
    · rw [hsplit hfront hjoined] at hlast
      cases hlast
      exact ⟨_, _, hfront, hjoined, isAction_iff.mp haction⟩

end Parts

theorem isTarget_of_endsWith (h : EndsWith action target) : isTarget target = true := by
  obtain ⟨front, last, -, hjoined, -⟩ := h
  exact isTarget_iff.mpr ⟨_, List.append_ne_nil_of_right_ne_nil _ (List.cons_ne_nil _ _), hjoined⟩

theorem check_eq_ok : check action command = .ok () ↔ Follows action command := by
  unfold check Follows
  rw [bind_eq_ok_iff]
  refine exists_congr fun target => and_congr target_eq_ok ?_
  by_cases htarget : isTarget target = true
  · rw [if_pos htarget, endsWith_iff htarget]
    cases splitLast ':' target with
    | none => simp
    | some parts =>
      obtain ⟨before, last⟩ := parts
      by_cases haction : isAction action last = true <;> simp [haction]
  · rw [if_neg htarget]
    exact iff_of_false (fun h => by cases h) fun h => htarget (isTarget_of_endsWith h)

theorem deviates_of_check (h : check action command = .error mismatch) :
    Deviates action command mismatch := by
  have hnot : ¬ Follows action command := not_of_eq_error check_eq_ok h
  unfold check at h
  cases htarget : Task.target command with
  | error fault =>
    rw [htarget] at h
    cases h
    exact deviates_of_target htarget
  | ok target =>
    have hhas := target_eq_ok.mp htarget
    have hends : ¬ EndsWith action target := fun hends => hnot ⟨target, hhas, hends⟩
    rw [htarget] at h
    have h : (if isTarget target = true then _ else _) = _ := h
    split at h
    · split at h
      · cases h
        exact .wrongAction hhas hends
      · split at h
        · cases h
        · cases h
          exact .wrongAction hhas hends
    · rename_i hjoined
      cases h
      refine .badTarget hhas fun segments hne hsegments => hjoined ?_
      exact isTarget_iff.mpr ⟨segments, hne, hsegments⟩

/-- A violation at a field of a process that says what is wrong with the command there. -/
def TellsMismatch (rule : Rule) (doc : Document) (p : Process) (field : List String)
    (subject action command : String) (v : Violation) : Prop :=
  ∃ position mismatch, doc.StandsAt p.name field position ∧
    Deviates action.toList command.toList mismatch ∧
    v = rule.violation doc position ("process '" ++ p.name ++ subject ++ mismatch.message action)

/-- The probe of the process has this command. -/
def ProbesWith (p : Process) (exec : ExecProbe) : Prop :=
  ∃ probe ∈ p.readinessProbe, probe.exec = some exec

theorem kind_eq_exec {p : Process} {exec : ExecProbe} :
    p.readinessProbe.map ReadinessProbe.kind = some (.exec exec) ↔ ProbesWith p exec := by
  unfold ProbesWith
  rw [Option.map_eq_some_iff]
  refine exists_congr fun probe => and_congr_right fun _ => ?_
  unfold ReadinessProbe.kind
  cases probe.exec with
  | some exec => simp
  | none => cases probe.httpGet <;> simp

theorem ProbesWith.unique {p : Process} {exec other : ExecProbe} (h : ProbesWith p exec)
    (hother : ProbesWith p other) : exec = other := by
  have hkind := (kind_eq_exec.mpr h).symm.trans (kind_eq_exec.mpr hother)
  cases hkind
  rfl

/-- What a command gives to the report that has to run an action. -/
theorem oneIf_check {tells : Violation → Prop} {violation : Mismatch → Violation}
    (h : ∀ mismatch, Deviates action command mismatch → tells (violation mismatch)) :
    OneIf (¬ Follows action command) tells
      (match check action command with
        | .ok () => none
        | .error mismatch => some (violation mismatch)).toList := by
  cases hcheck : check action command with
  | ok _ => exact .none (not_not.mpr (check_eq_ok.mp hcheck))
  | error mismatch =>
    exact .one (not_of_eq_error check_eq_ok hcheck) (h mismatch (deviates_of_check hcheck))

/-- Each enabled process is reported just if its command does not run the action `run`, and just if
its probe has a command that does not run the action `health`. -/
theorem reports_deviations (doc : Document) :
    PartByPart doc.processes
        (fun p => OneIf (p.disabled = false ∧ ¬ Follows "run".toList p.command.toList)
          (TellsMismatch .taskCommand doc p ["command"] "': command " "run" p.command))
        (Rule.taskCommand.check doc) ∧
      PartByPart doc.processes
        (fun p => OneIf
          (p.disabled = false ∧ ∃ exec, ProbesWith p exec ∧
            ¬ Follows "health".toList exec.command.toList)
          (fun v => ∃ exec, ProbesWith p exec ∧
            TellsMismatch .taskHealth doc p ["readiness_probe", "exec", "command"]
              "': readiness probe command " "health" exec.command v))
        (Rule.taskHealth.check doc) := by
  rw [Rule.check_eq_findings rfl, Rule.check_eq_findings rfl]
  constructor
  · refine .of_enabled (.filterMap fun p hp => ?_) fun p _ hdisabled => .none (by simp [hdisabled])
    refine (oneIf_check fun mismatch hdeviates => ?_).of_iff
      (and_iff_right (Document.disabled_of_mem_enabled hp))
    exact ⟨_, mismatch, doc.standsAt_positionOf p.name ["command"], hdeviates, rfl⟩
  · refine .of_enabled (.filterMap fun p hp => ?_) fun p _ hdisabled => .none (by simp [hdisabled])
    have henabled := Document.disabled_of_mem_enabled hp
    split
    · rename_i exec hkind
      have hexec : ProbesWith p exec := kind_eq_exec.mp hkind
      refine (oneIf_check fun mismatch hdeviates => ?_).of_iff ?_
      · exact ⟨exec, hexec, _, mismatch, doc.standsAt_positionOf p.name _, hdeviates, rfl⟩
      · constructor
        · rintro ⟨-, other, hother, hnot⟩
          rwa [hexec.unique hother]
        · exact fun hnot => ⟨henabled, exec, hexec, hnot⟩
    · rename_i hkind
      refine .none ?_
      rintro ⟨-, exec, hexec, -⟩
      exact hkind exec (kind_eq_exec.mpr hexec)

end ProcessLint.Task
