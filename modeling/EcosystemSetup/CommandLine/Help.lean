import EcosystemSetup.CommandLine.Arguments

/-!
# Help

The texts that describe the command line: what a command does, how it is called, and its options in
two columns.
-/

namespace EcosystemSetup.CommandLine

/-- The name of the program. -/
def programName : String :=
  "ces-setup"

/-- The version of the program, as a line. -/
def versionText : String :=
  programName ++ " 0.0.0\n"

/-- What a command does. -/
def Place.summary : Place → String
  | .top => "Install the Cloudogu EcoSystem into a Kubernetes cluster"
  | .run => "Run the full setup once"
  | .plan => "Print the steps a run would execute, without a cluster"
  | .state => "Show the recorded setup state of a namespace"

/-- How a command is called. -/
def Place.usage : Place → String
  | .top => programName ++ " [OPTIONS] <COMMAND>"
  | .run => programName ++ " run [OPTIONS] --config <CONFIG>"
  | .plan => programName ++ " plan [OPTIONS] --config <CONFIG>"
  | .state => programName ++ " state [OPTIONS]"

/-- The commands with what they do. -/
def commandRows : List (String × String) :=
  [("run", Place.run.summary), ("plan", Place.plan.summary), ("state", Place.state.summary),
    ("help", "Print this message or the help of the given subcommand(s)")]

/-- The help of an option; `fromEnvironment` is the configuration that the environment names. -/
def keyRow (fromEnvironment : Option String) (place : Place) : Key → String × String
  | .output =>
    ("-o, --output <OUTPUT>", "Output format [default: human] [possible values: human, json]")
  | .config =>
    ("-c, --config <CONFIG>", "[env: CES_SETUP_CONFIG=" ++ fromEnvironment.getD "" ++ "]")
  | .registry =>
    ("    --registry <REGISTRY>",
      if place = .run then "Dogu descriptor directory (overrides registryDir)" else "")
  | .namespaceName => ("-n, --namespace <NAMESPACE>", "[default: ecosystem]")

/-- The options of a place in the order of their help. -/
def Place.helpKeys : Place → List Key
  | .top => [.output]
  | .run => [.config, .output, .registry]
  | .plan => [.config, .output, .registry]
  | .state => [.namespaceName, .output]

/-- The options of a place with their help. -/
def optionRows (fromEnvironment : Option String) (place : Place) : List (String × String) :=
  place.helpKeys.map (keyRow fromEnvironment place) ++ [("-h, --help", "Print help")] ++
    if place = .top then [("-V, --version", "Print version")] else []

/-- Rows in two columns. -/
def columns (rows : List (String × String)) : String :=
  let width := (rows.map fun r => r.1.length).foldl max 0
  String.join <| rows.map fun r =>
    "  " ++ r.1 ++ String.ofList (List.replicate (width - r.1.length) ' ') ++ "  " ++ r.2 ++ "\n"

/-- The help of a place. -/
def helpText (fromEnvironment : Option String) (place : Place) : String :=
  let commands := if place = .top then "Commands:\n" ++ columns commandRows ++ "\n" else ""
  place.summary ++ "\n\nUsage: " ++ place.usage ++ "\n\n" ++ commands ++ "Options:\n" ++
    columns (optionRows fromEnvironment place)

end EcosystemSetup.CommandLine
