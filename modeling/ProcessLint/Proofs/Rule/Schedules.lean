import ProcessLint.Proofs.Cron.Grammar
import ProcessLint.Proofs.Duration.Grammar
import ProcessLint.Proofs.Rule.Reports

/-!
Schedules of processes, disabled ones too. Each may give two violations, and one does not depend on
the other: that the time is not given just once and well formed, and that there is no room for a
run. A cron expression or an interval that is blank counts as not given, but otherwise all of its
text is checked, white space at its ends included.
-/
namespace ProcessLint.Timing

open Text

/-- Given, and not blank. -/
def IsSet (value : Option String) : Prop := ∃ text ∈ value, ∃ c ∈ text.toList, isSpace c = false

/-- One of cron expression and interval is given and the other is not, and it is well formed. -/
inductive IsTimed (s : Schedule) : Prop
  | cron {text : String} : s.cron = some text → IsSet s.cron → ¬ IsSet s.interval →
      Cron.IsExpression text.toList → IsTimed s
  | interval {text : String} : s.interval = some text → ¬ IsSet s.cron → IsSet s.interval →
      Duration.IsDuration text.toList → IsTimed s

/-- What is amiss with the time of a schedule: the field to blame below the schedule, and the
message. A text that is not well formed is quoted as it stands, with the fault that is found. -/
inductive Mistimed (s : Schedule) : List String → String → Prop
  | both : IsSet s.cron → IsSet s.interval →
      Mistimed s [] "': schedule sets both cron and interval; keep exactly one"
  | neither : ¬ IsSet s.cron → ¬ IsSet s.interval →
      Mistimed s [] "': schedule sets neither cron nor interval"
  | cron {text : String} {fault : Cron.Fault} : s.cron = some text → IsSet s.cron →
      ¬ IsSet s.interval → ¬ Cron.IsExpression text.toList → Cron.check text = .error fault →
      Mistimed s ["cron"] ("': invalid cron '" ++ text ++ "': " ++ fault.message)
  | interval {text : String} {fault : Duration.Fault} : s.interval = some text → ¬ IsSet s.cron →
      IsSet s.interval → ¬ Duration.IsDuration text.toList → Duration.check text = .error fault →
      Mistimed s ["interval"] ("': invalid interval '" ++ text ++ "': " ++ fault.message)

/-- There is room for a run at a time, if the room is limited. -/
def HasRoom (s : Schedule) : Prop := ∀ count ∈ s.maxConcurrent, 1 ≤ count

/-- A limit on the runs at a time that leaves no room for one, and the message. -/
inductive Crowded (s : Schedule) : List String → String → Prop
  | few {count : Int} : s.maxConcurrent = some count → count < 1 →
      Crowded s ["max_concurrent"]
        ("': max_concurrent must be at least 1, got " ++ toString count)

/-- A violation at a field of the schedule of a process, with the message for it. -/
def TellsOf (doc : Document) (process : String) (amiss : List String → String → Prop)
    (v : Violation) : Prop :=
  ∃ field message position, amiss field message ∧
    doc.StandsAt process ("schedule" :: field) position ∧
    v = Rule.scheduleConfig.violation doc position ("process '" ++ process ++ message)

/-- What a process gives to the report: nothing without a schedule, or else what is found of the
time and behind it what is found of the room. -/
inductive TellsSchedule (doc : Document) (p : Process) : List Violation → Prop
  | none : p.schedule = none → TellsSchedule doc p []
  | some {s : Schedule} {time room : List Violation} : p.schedule = some s →
      OneIf (¬ IsTimed s) (TellsOf doc p.name (Mistimed s)) time →
      OneIf (¬ HasRoom s) (TellsOf doc p.name (Crowded s)) room →
      TellsSchedule doc p (time ++ room)

variable {doc : Document} {s : Schedule} {value : Option String} {text : String}

theorem filter_eq_some :
    value.filter (!·.isBlank) = some text ↔ value = some text ∧ IsSet value := by
  have hink : ∀ text : String, (!text.isBlank) = true ↔ ∃ c ∈ text.toList, isSpace c = false := by
    simp [String.isBlank, isBlank]
  rw [Option.filter_eq_some_iff, hink]
  refine and_congr_right ?_
  rintro rfl
  simp [IsSet]

theorem filter_eq_none : value.filter (!·.isBlank) = none ↔ ¬ IsSet value := by
  constructor
  · rintro hnone ⟨text, hvalue, hink⟩
    have hsome := filter_eq_some.mpr ⟨hvalue, text, hvalue, hink⟩
    rw [hnone] at hsome
    cases hsome
  · intro hset
    refine Option.eq_none_iff_forall_ne_some.mpr fun text hsome => ?_
    exact hset (filter_eq_some.mp hsome).2

theorem duration_check_eq_ok : Duration.check text = .ok () ↔ Duration.IsDuration text.toList :=
  ⟨Duration.isDuration_of_check, Duration.check_of_isDuration⟩

theorem Mistimed.not_isTimed {field : List String} {message : String}
    (h : Mistimed s field message) : ¬ IsTimed s := by
  intro htimed
  cases htimed with
  | cron htext hcron hinterval hgood =>
    cases h with
    | both _ hset => exact hinterval hset
    | neither hunset => exact hunset hcron
    | cron hother _ _ hbad =>
      rw [htext] at hother
      cases hother
      exact hbad hgood
    | interval _ hunset => exact hunset hcron
  | interval htext hcron hinterval hgood =>
    cases h with
    | both hset => exact hcron hset
    | neither _ hunset => exact hunset hinterval
    | cron _ hset => exact hcron hset
    | interval hother _ _ hbad =>
      rw [htext] at hother
      cases hother
      exact hbad hgood

/-- The time is reported just if it is amiss, and each case of the report is one of what is amiss. -/
theorem oneIf_time (doc : Document) (name : String) (s : Schedule) :
    OneIf (¬ IsTimed s) (TellsOf doc name (Mistimed s)) (checkTime doc name s) := by
  have hplace := doc.standsAt_positionOf name
  have htells {field : List String} {message : String} {v : Violation}
      (h : Mistimed s field message)
      (hv : v = Rule.scheduleConfig.violation doc (doc.positionOf name ("schedule" :: field))
        ("process '" ++ name ++ message)) :
      OneIf (¬ IsTimed s) (TellsOf doc name (Mistimed s)) [v] :=
    .one h.not_isTimed ⟨field, message, _, h, hplace _, hv⟩
  unfold checkTime
  dsimp only
  cases hcron : s.effectiveCron with
  | some cron =>
    obtain ⟨htext, hset⟩ := filter_eq_some.mp hcron
    cases hinterval : s.effectiveInterval with
    | some interval => exact htells (.both hset (filter_eq_some.mp hinterval).2) rfl
    | none =>
      have hunset := filter_eq_none.mp hinterval
      dsimp only
      cases hcheck : Cron.check cron with
      | ok _ =>
        exact .none (not_not.mpr (.cron htext hset hunset (Cron.check_eq_ok.mp hcheck)))
      | error fault =>
        have hbad := not_of_eq_error Cron.check_eq_ok hcheck
        refine htells (.cron htext hset hunset hbad hcheck) ?_
        simp only [← String.append_assoc]
        rfl
  | none =>
    have hunset := filter_eq_none.mp hcron
    cases hinterval : s.effectiveInterval with
    | none => exact htells (.neither hunset (filter_eq_none.mp hinterval)) rfl
    | some interval =>
      obtain ⟨htext, hset⟩ := filter_eq_some.mp hinterval
      dsimp only
      cases hcheck : Duration.check interval with
      | ok _ =>
        exact .none (not_not.mpr (.interval htext hunset hset (duration_check_eq_ok.mp hcheck)))
      | error fault =>
        have hbad := not_of_eq_error duration_check_eq_ok hcheck
        refine htells (.interval htext hunset hset hbad hcheck) ?_
        simp only [← String.append_assoc]
        rfl

theorem oneIf_room (doc : Document) (name : String) (s : Schedule) :
    OneIf (¬ HasRoom s) (TellsOf doc name (Crowded s)) (checkConcurrency doc name s) := by
  have hroom {count : Int} (h : s.maxConcurrent = some count) : HasRoom s ↔ 1 ≤ count := by
    simp [HasRoom, h]
  unfold checkConcurrency
  cases hmax : s.maxConcurrent with
  | none => exact .none (by simp [HasRoom, hmax])
  | some count =>
    dsimp only
    by_cases hfew : count < 1
    · rw [if_pos hfew]
      refine .one ?_ ⟨_, _, _, .few hmax hfew, doc.standsAt_positionOf name _, ?_⟩
      · rwa [hroom hmax, not_le]
      · simp only [← String.append_assoc]
        rfl
    · rw [if_neg hfew]
      exact .none (by rwa [hroom hmax, ← not_lt, not_not])

/-- A process gives nothing just if it has no schedule or a sound one. -/
theorem TellsSchedule.eq_nil_iff {p : Process} {part : List Violation}
    (h : TellsSchedule doc p part) : part = [] ↔ ∀ s ∈ p.schedule, IsTimed s ∧ HasRoom s := by
  cases h with
  | none hnone => simp [hnone]
  | some hsome htime hroom =>
    rw [List.append_eq_nil_iff, htime.eq_nil_iff, hroom.eq_nil_iff, not_not, not_not]
    simp [hsome]

/-- Each schedule is reported for its time and for its room, process by process, and the report is
empty just if all the schedules are sound. -/
theorem reports_schedules (doc : Document) :
    PartByPart doc.processes (TellsSchedule doc) (Rule.scheduleConfig.check doc) ∧
      (Rule.scheduleConfig.check doc = [] ↔
        ∀ p ∈ doc.processes, ∀ s ∈ p.schedule, IsTimed s ∧ HasRoom s) := by
  have hparts : PartByPart doc.processes (TellsSchedule doc) (Rule.scheduleConfig.check doc) := by
    rw [Rule.check_eq_findings rfl]
    refine .flatMap fun p _ => ?_
    cases hschedule : p.schedule with
    | none => exact .none hschedule
    | some s => exact .some hschedule (oneIf_time doc p.name s) (oneIf_room doc p.name s)
  exact ⟨hparts, hparts.eq_nil_iff fun _ _ => TellsSchedule.eq_nil_iff⟩

end ProcessLint.Timing
