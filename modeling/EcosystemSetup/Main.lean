import EcosystemSetup.CommandLine.Execute
import EcosystemSetup.Server.Client

/-!
# The program

Collects what a command looks at: the environment, the file of the configuration and the directory of
the registry. The command itself is `CommandLine.execute`. No access to a cluster is set up here, so
only `plan` comes to a result.
-/

namespace EcosystemSetup.CommandLine

/-- A path with a working directory before it, as its components; dots are followed. -/
def componentsFrom (workDir : List String) (path : String) : List String :=
  let start := if path.startsWith "/" then [] else workDir
  (Text.segmentsOf path '/').foldl (fun parts part =>
    if part = "" || part = "." then parts
    else if part = ".." then parts.dropLast
    else parts ++ [part]) start

/-- Adds what lies at a path to a tree; of a directory, what lies below it to a depth. -/
def addPath (depth : Nat) (parts : List String) (t : FileTree) : IO FileTree := do
  let path := "/" ++ String.intercalate "/" parts
  try
    let entries ← (← IO.FS.realPath path).readDir
    let t := { t with folders := t.folders ++ [parts] }
    match depth with
    | 0 => return t
    | depth + 1 => entries.foldlM (fun t e => addPath depth (parts ++ [e.fileName]) t) t
  catch _ =>
    try
      return { t with files := t.files ++ [(parts, ← IO.FS.readFile path)] }
    catch _ => return t

/-- How deep a registry is: namespaces, dogus, versions. -/
def registryDepth : Nat := 3

/-- The files that a command looks at. -/
def addFiles (workDir : List String) (registry : Option String) (path : String) (t : FileTree) :
    IO FileTree := do
  let t ← addPath 0 (componentsFrom workDir path) t
  match Config.load t path with
  | .error _ => return t
  | .ok config =>
    match registryDir? config registry with
    | none => return t
    | some dir => addPath registryDepth (componentsFrom workDir dir) t

/-- The files that a command line looks at. -/
def collectFiles (workDir : List String) : Request → IO FileTree
  | .command _ (.run path registry) => addFiles workDir registry path ⟨[], [workDir], some workDir⟩
  | .command _ (.plan path registry) => addFiles workDir registry path ⟨[], [workDir], some workDir⟩
  | _ => return {}

/-- The variables that commands look at. -/
def collectVariables : IO (List (String × String)) := do
  let names := configVariable :: Wait.settingNames
  let found ← names.mapM fun name => do return (← IO.getEnv name).map fun value => (name, value)
  return found.filterMap id

/-- Executes a command line in the process's own surroundings; gives the exit code. -/
def executeHere (words : List String) : IO UInt32 := do
  let environment ← collectVariables
  let workDir := componentsFrom [] (← IO.currentDir).toString
  let files ← collectFiles workDir (.read (environment.lookup configVariable) words)
  let surroundings : Surroundings Server.Client := ⟨fun name => environment.lookup name, files, none⟩
  let outcome := execute surroundings words
  IO.print outcome.output
  IO.eprint outcome.errors
  return UInt32.ofNat outcome.exit

end EcosystemSetup.CommandLine

def main (words : List String) : IO UInt32 :=
  EcosystemSetup.CommandLine.executeHere words
