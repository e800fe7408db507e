import ProcessLint.Cron
import ProcessLint.Duration
import ProcessLint.Violation

/-!
Schedules: exactly one of a cron expression and an interval, well-formed, and room for at least
one run at a time.
-/
namespace ProcessLint.Timing

/-- What is wrong with when a process runs. -/
def checkTime (doc : Document) (name : String) (s : Schedule) : List Violation :=
  let at_ (field : List String) (message : String) : List Violation :=
    [Rule.scheduleConfig.violation doc (doc.positionOf name ("schedule" :: field)) message]
  match s.effectiveCron, s.effectiveInterval with
  | some _, some _ =>
      at_ [] s!"process '{name}': schedule sets both cron and interval; keep exactly one"
  | none, none => at_ [] s!"process '{name}': schedule sets neither cron nor interval"
  | some cron, none =>
      match Cron.check cron with
      | .ok () => []
      | .error fault =>
          at_ ["cron"] s!"process '{name}': invalid cron '{cron}': {fault.message}"
  | none, some interval =>
      match Duration.check interval with
      | .ok () => []
      | .error fault =>
          at_ ["interval"] s!"process '{name}': invalid interval '{interval}': {fault.message}"

def checkConcurrency (doc : Document) (name : String) (s : Schedule) : List Violation :=
  match s.maxConcurrent with
  | some count =>
      if count < 1 then
        [Rule.scheduleConfig.violation doc
          (doc.positionOf name ["schedule", "max_concurrent"])
          s!"process '{name}': max_concurrent must be at least 1, got {count}"]
      else []
  | none => []

/-- Schedules of all processes, disabled ones too. -/
def check (doc : Document) : List Violation :=
  doc.processes.flatMap fun p =>
    match p.schedule with
    | some s => checkTime doc p.name s ++ checkConcurrency doc p.name s
    | none => []

end ProcessLint.Timing
