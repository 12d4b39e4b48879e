import EcosystemSetup.Config.Basic
import EcosystemSetup.Document.YamlText
import EcosystemSetup.FileTree

/-!
# Configuration files

A configuration is written as YAML. Reading one from a file fails if the file cannot be read or if
its text is no configuration.
-/

namespace EcosystemSetup.Config

/-- The configuration that a YAML text holds. -/
def ofYamlText (s : String) : Option Config :=
  (Document.ofYamlText s).bind Config.decode

/-- Why no configuration was loaded. -/
inductive LoadError where
  | unreadable (path : String) (cause : FileError)
  | malformed
  deriving DecidableEq, Repr

/-- Loads the configuration of a file. -/
def load (t : FileTree) (path : String) : Except LoadError Config :=
  match t.read path with
  | .error cause => .error (.unreadable path cause)
  | .ok text =>
    match ofYamlText text with
    | some c => .ok c
    | none => .error .malformed

end EcosystemSetup.Config
