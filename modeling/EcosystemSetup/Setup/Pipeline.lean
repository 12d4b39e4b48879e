import EcosystemSetup.Setup.Step

/-!
# The pipeline

All steps of a setup in their order: the configuration is checked and the namespace created; then come
the components, each with its wait, and their patches; the selection of dogus; the planned dogu steps
and the patches of the dogus; and last the load balancer with its patches.
-/

namespace EcosystemSetup

/-- What a setup works from. -/
structure Setup where
  config : Config
  registry : Registry
  settings : Wait.Settings

/-- Why a setup does not succeed. -/
inductive SetupError where
  | alreadyRunning
  | alreadyInstalled
  | config (cause : ConfigError)
  | plan (cause : Plan.PlanError)
  | state (cause : StateStore.StateError)
  | step (cause : ExecutorError)
  deriving DecidableEq, Repr

namespace SetupError

/-- The wording of an error. -/
def message : SetupError → String
  | .alreadyRunning => "setup is already running"
  | .alreadyInstalled => "setup has already completed"
  | .config cause => "invalid setup configuration: " ++ cause.message
  | .plan cause => "planning dogu installation: " ++ cause.message
  | .state cause => cause.message
  | .step cause => cause.message

/-- The description of the step that failed, if one did. -/
def failedStep? : SetupError → Option String
  | .step cause => cause.failedStep?
  | _ => none

end SetupError

namespace Setup

/-- The plan of the dogus. Components of the configuration are waited for before any dogu. -/
def plannedSteps (s : Setup) : Except SetupError (List Plan.PlannedStep) :=
  match s.config.requests with
  | .error e => .error (.config e)
  | .ok requests =>
    let around : Plan.Surroundings :=
      ⟨s.config.componentNames, s.config.componentNames⟩
    (Plan.generate s.registry around requests).mapError .plan

/-- The steps of a component: installing it, and waiting for it. -/
def componentSteps (s : Setup) (e : Config.ComponentEntry) : List SetupStep :=
  [installComponent s.config.namespaceName e,
    planned s.config.namespaceName s.settings (.awaitComponent e.name)]

/-- The steps of the load balancer, if there is to be one. -/
def loadbalancerSteps (s : Setup) : List SetupStep :=
  if s.config.loadbalancer.enabled then
    [createLoadbalancer s.config.namespaceName s.config.loadbalancer]
  else []

/-- All steps around planned ones. -/
def steps (s : Setup) (dogus : List Plan.PlannedStep) : List SetupStep :=
  [validateConfiguration s.config, createNamespace s.config.namespaceName] ++
    s.config.components.flatMap s.componentSteps ++
    [patchPhase s.config .component, writeConfiguration s.config] ++
    dogus.map (planned s.config.namespaceName s.settings) ++
    [patchPhase s.config .dogu] ++ s.loadbalancerSteps ++ [patchPhase s.config .loadbalancer]

/-- The pipeline of a setup. -/
def pipeline (s : Setup) : Except SetupError (Executor Program) :=
  s.plannedSteps.map fun dogus => { steps := s.steps dogus }

/-- The descriptions of all steps, in order. -/
def plan (s : Setup) : Except SetupError (List String) :=
  s.pipeline.map Executor.descriptions

end Setup

end EcosystemSetup
