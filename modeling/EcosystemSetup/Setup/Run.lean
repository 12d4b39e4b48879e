import EcosystemSetup.Setup.Pipeline

/-!
# Setup runs

A run looks at the recorded state, builds the pipeline, claims the setup, performs the pipeline and
records that the setup is complete. A run that fails in a step leaves the setup claimed.
-/

namespace EcosystemSetup.Setup

/-- What a recorded state means for a run: it has nothing left to do. -/
def refusal : RunState → SetupError
  | .installing => .alreadyRunning
  | .installed => .alreadyInstalled

/-- What a failed claim means for a run. -/
def claimRefusal : StateStore.StateError → SetupError
  | .taken (some .installed) => .alreadyInstalled
  | .taken _ => .alreadyRunning
  | e => .state e

/-- The recorded state. -/
def state : Program (Except SetupError (Option RunState)) := do
  return (← StateStore.get).mapError .state

/-- Performs the pipeline of a claimed setup and records that it is complete. -/
def complete (executor : Executor Program) : Program (Except SetupError Unit) := do
  match (← executor.run Program.isCancelled).1 with
  | .error e => return .error (.step e)
  | .ok () => return (← StateStore.set .installed).mapError .state

/-- Claims the setup and performs its pipeline. -/
def claimAndComplete (executor : Executor Program) : Program (Except SetupError Unit) := do
  match ← StateStore.claim with
  | .error e => return .error (claimRefusal e)
  | .ok () => complete executor

/-- Runs a setup. -/
def run (s : Setup) : Program (Except SetupError Unit) := do
  match ← StateStore.get with
  | .error e => return .error (.state e)
  | .ok (some found) => return .error (refusal found)
  | .ok none =>
    match s.pipeline with
    | .error e => return .error e
    | .ok executor => claimAndComplete executor

end EcosystemSetup.Setup
