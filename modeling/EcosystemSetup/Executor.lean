import EcosystemSetup.Failure

/-!
# Executors

Runs registered steps one after another, in the order of their registration, up to the first one that
fails or finds the run cancelled. An executor runs once: its state tells whether it may still run.
What performs the steps is left open; any monad will do.

A run has its executor to itself until it ends, and what it gives back is the executor after that. So
nobody finds an executor `running` but after a run that was given up half-way, which gives nothing back.
-/

namespace EcosystemSetup

/-- A unit of work with its description. -/
structure Step (m : Type → Type) where
  description : String
  perform : m (Except Failure Unit)

namespace Executor

/-- Whether an executor may still run. -/
inductive State where
  | idle
  | running
  | completed
  | failed
  deriving DecidableEq, Repr, Inhabited

/-- The name of a state. -/
def State.name : State → String
  | .idle => "Idle"
  | .running => "Running"
  | .completed => "Completed"
  | .failed => "Failed"

end Executor

/-- A step that failed, counted from zero in the order of registration. -/
structure StepFailed where
  index : Nat
  description : String
  cause : Failure
  deriving DecidableEq, Repr

/-- The wording of a failed step. -/
def StepFailed.message (f : StepFailed) : String :=
  "failed during step '" ++ f.description ++ "': " ++ f.cause.describe

/-- Why a run ends without completing. -/
inductive ExecutorError where
  | step (failed : StepFailed)
  | alreadyRan (state : Executor.State)
  deriving DecidableEq, Repr

namespace ExecutorError

/-- The wording of an error. -/
def message : ExecutorError → String
  | .step f => f.message
  | .alreadyRan s => "executor already ran (state " ++ s.name ++ ")"

/-- The description of the step that failed, if one did. -/
def failedStep? : ExecutorError → Option String
  | .step f => some f.description
  | .alreadyRan _ => none

end ExecutorError

/-- Steps in their order, and whether they may still run. -/
structure Executor (m : Type → Type) where
  steps : List (Step m) := []
  state : Executor.State := .idle

namespace Executor

variable {m : Type → Type}

/-- Adds a step at the end. -/
def register (e : Executor m) (s : Step m) : Executor m :=
  { e with steps := e.steps ++ [s] }

/-- Adds steps at the end. -/
def registerAll (e : Executor m) (ss : List (Step m)) : Executor m :=
  { e with steps := e.steps ++ ss }

/-- The descriptions of all steps, in order. -/
def descriptions (e : Executor m) : List String :=
  e.steps.map Step.description

/-- What is wrong with a step that a cancelled run comes to. -/
def cancelledBeforeStep : Failure :=
  ⟨"setup cancelled before step started", []⟩

/-- Performs a step, unless the run is cancelled. -/
def performStep [Monad m] (isCancelled : m Bool) (s : Step m) : m (Except Failure Unit) := do
  if ← isCancelled then return .error cancelledBeforeStep else s.perform

/-- Performs steps, the first of which has the given index; the first failure ends the run. -/
def performFrom [Monad m] (isCancelled : m Bool) (index : Nat) :
    List (Step m) → m (Option StepFailed)
  | [] => return none
  | s :: rest => do
    match ← performStep isCancelled s with
    | .ok () => performFrom isCancelled (index + 1) rest
    | .error cause => return some ⟨index, s.description, cause⟩

/-- The state after a run. -/
def State.afterRun : Option StepFailed → State
  | none => .completed
  | some _ => .failed

/-- The outcome of a run. -/
def outcome : Option StepFailed → Except ExecutorError Unit
  | none => .ok ()
  | some f => .error (.step f)

/-- Runs all steps, if the executor has not run before. -/
def run [Monad m] (isCancelled : m Bool) (e : Executor m) :
    m (Except ExecutorError Unit × Executor m) := do
  if e.state = .idle then
    let failed ← performFrom isCancelled 0 e.steps
    return (outcome failed, { e with state := .afterRun failed })
  else return (.error (.alreadyRan e.state), e)

end Executor

end EcosystemSetup
