import EcosystemSetup.CommandLine.Help
import EcosystemSetup.Config.File
import EcosystemSetup.Json.Printer
import EcosystemSetup.Program.Run
import EcosystemSetup.Registry.Directory
import EcosystemSetup.Setup.Run

/-!
# Commands

What the commands do and print. `plan` and `run` load the configuration and then find the registry;
`run` and `state` need a cluster, `plan` does not. A command that fails says why in one line on the
error stream and exits with 1; a misused command line exits with 2.
-/

namespace EcosystemSetup.CommandLine

/-- What a command leaves behind: its exit code and what it prints. -/
structure Outcome where
  exit : Nat := 0
  output : String := ""
  errors : String := ""
  deriving DecidableEq, Repr, Inhabited

/-- Where a command is run. -/
structure Surroundings (σ : Type) where
  /-- The variables of the environment. -/
  environment : String → Option String
  files : FileTree
  /-- The cluster as it is seen from a namespace, if there is access to one. -/
  connect : Option (String → World σ)

/-- The variable that names the configuration. -/
def configVariable : String :=
  "CES_SETUP_CONFIG"

/-- Why a command fails. -/
inductive Failing where
  | loading (path : String)
  | noRegistry
  | noCluster
  | setup (cause : SetupError)
  deriving DecidableEq, Repr

/-- The wording of a failure. -/
def Failing.message : Failing → String
  | .loading path => "loading " ++ path
  | .noRegistry => "no dogu registry: set registryDir in the configuration or pass --registry"
  | .noCluster => "creating kube client (kubeconfig or in-cluster config)"
  | .setup cause => cause.message

/-- What a failed command leaves behind. -/
def Failing.outcome (f : Failing) (output : String) : Outcome :=
  ⟨1, output, "Error: " ++ f.message ++ "\n"⟩

variable {σ : Type}

/-- The directory of the registry: the option comes before the configuration. -/
def registryDir? (config : Config) (option : Option String) : Option String :=
  option.or config.registryDir

/-- The setup that a command is about. -/
def loadSetup (s : Surroundings σ) (path : String) (registry : Option String) :
    Except Failing Setup :=
  match Config.load s.files path with
  | .error _ => .error (.loading path)
  | .ok config =>
    match registryDir? config registry with
    | none => .error .noRegistry
    | some dir =>
      .ok ⟨config, .ofDirectory s.files dir, config.wait.apply (.ofEnvironment s.environment)⟩

/-! ## Planning -/

/-- Steps with their numbers. -/
def numberedLines (steps : List String) : String :=
  String.join <| steps.zipIdx.map fun s =>
    let number := toString (s.2 + 1)
    String.ofList (List.replicate (3 - number.length) ' ') ++ number ++ ". " ++ s.1 ++ "\n"

/-- What planning prints. -/
def planText (format : OutputFormat) (steps : List String) : String :=
  match format with
  | .human => numberedLines steps
  | .json => Json.renderLines steps ++ "\n"

/-- Prints the steps of a setup. -/
def executePlan (format : OutputFormat) (setup : Except Failing Setup) : Outcome :=
  match setup with
  | .error f => f.outcome ""
  | .ok setup =>
    match setup.plan with
    | .error e => (Failing.setup e).outcome ""
    | .ok steps => { output := planText format steps }

/-! ## Running -/

/-- What a run that succeeds prints. -/
def completedText (format : OutputFormat) (namespaceName : String) : String :=
  match format with
  | .human => "setup of " ++ namespaceName ++ " completed\n"
  | .json =>
    (Json.record [("namespace", .text namespaceName), ("state", .text "installed")]).render ++ "\n"

/-- What a run that fails prints besides the failure. -/
def failedText (format : OutputFormat) (namespaceName : String) (e : SetupError) : String :=
  match format with
  | .human => ""
  | .json =>
    (Json.record [("error", .text e.message), ("failedStep", Json.ofText? e.failedStep?),
      ("namespace", .text namespaceName)]).render ++ "\n"

/-- Runs a setup. -/
def executeRun [Backend σ] (format : OutputFormat) (connect : Option (String → World σ))
    (setup : Except Failing Setup) : Outcome :=
  match setup with
  | .error f => f.outcome ""
  | .ok setup =>
    match connect with
    | none => Failing.noCluster.outcome ""
    | some connect =>
      match (setup.run.run (connect setup.config.namespaceName)).1 with
      | .ok () => { output := completedText format setup.config.namespaceName }
      | .error e =>
        (Failing.setup e).outcome (failedText format setup.config.namespaceName e)

/-! ## Looking at the state -/

/-- What is printed about a recorded state. -/
def stateText (format : OutputFormat) (namespaceName : String) (state : Option RunState) : String :=
  let name := state.map RunState.name
  match format with
  | .human => namespaceName ++ ": " ++ name.getD "not started" ++ "\n"
  | .json =>
    (Json.record [("namespace", .text namespaceName), ("state", Json.ofText? name)]).render ++ "\n"

/-- Prints the recorded state. -/
def executeState [Backend σ] (format : OutputFormat) (connect : Option (String → World σ))
    (namespaceName : String) : Outcome :=
  match connect with
  | none => Failing.noCluster.outcome ""
  | some connect =>
    match (Setup.state.run (connect namespaceName)).1 with
    | .ok state => { output := stateText format namespaceName state }
    | .error e => (Failing.setup e).outcome ""

/-! ## All commands -/

/-- Executes a command. -/
def Command.execute [Backend σ] (s : Surroundings σ) (format : OutputFormat) : Command → Outcome
  | .run path registry => executeRun format s.connect (loadSetup s path registry)
  | .plan path registry => executePlan format (loadSetup s path registry)
  | .state namespaceName => executeState format s.connect namespaceName

/-- Executes what a command line asks for. -/
def execute [Backend σ] (s : Surroundings σ) (words : List String) : Outcome :=
  match Request.read (s.environment configVariable) words with
  | .command format command => command.execute s format
  | .help place => { output := helpText (s.environment configVariable) place }
  | .version => { output := versionText }
  | .misuse =>
    ⟨2, "", "Usage: " ++ Place.top.usage ++ "\n\nFor more information, try '--help'.\n"⟩

end EcosystemSetup.CommandLine
