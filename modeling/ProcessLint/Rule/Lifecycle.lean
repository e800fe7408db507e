import ProcessLint.Violation

/-!
How an enabled process is stopped, restarted and probed has to be configured.
-/
namespace ProcessLint.Lifecycle

def hasShutdown (p : Process) : Bool :=
  p.shutdown.any fun s => s.signal.isSome || s.timeoutSeconds.isSome

def checkShutdown (doc : Document) : List Violation :=
  (doc.enabled.filter (!hasShutdown ·)).map fun p =>
    Rule.shutdownConfig.violation doc (doc.positionOf p.name ["shutdown"])
      s!"process '{p.name}' has no shutdown signal or timeout_seconds configured"

def hasRestartPolicy (p : Process) : Bool :=
  p.availability.any fun a => a.restart.any (!·.isBlank)

def checkRestart (doc : Document) : List Violation :=
  (doc.enabled.filter (!hasRestartPolicy ·)).map fun p =>
    Rule.restartPolicy.violation doc (doc.positionOf p.name ["availability"])
      s!"process '{p.name}' has no availability.restart policy"

def checkReadiness (doc : Document) : List Violation :=
  (doc.enabled.filter (·.readinessProbe.isNone)).map fun p =>
    Rule.readinessProbe.violation doc (doc.positionOf p.name [])
      s!"process '{p.name}' has no readiness_probe"

end ProcessLint.Lifecycle
