import EcosystemSetup.Config.Basic
import EcosystemSetup.Text.Blank

/-!
# Validating a configuration

Everything that can be checked without a cluster: the requests parse and no two of them are for one
dogu, the default dogu is among them, components are named with their versions and patches are sound.
-/

namespace EcosystemSetup

/-- What is wrong with a configuration; entries are counted from zero. -/
inductive ConfigError where
  | emptyNamespace
  | dogu (entry : String) (cause : ReadError)
  | duplicateDogu (simpleName : String)
  | defaultDogu (name : String)
  | component (index : Nat)
  | patch (index : Nat) (resource : Patch.ResourceName) (defect : Patch.Defect)
  deriving DecidableEq, Repr

namespace ConfigError

/-- What the error stems from, in its own words. -/
def cause? : ConfigError → Option String
  | .dogu _ e => some e.message
  | .patch _ resource defect => some (Patch.invalidMessage resource defect)
  | _ => none

/-- The wording of an error. -/
def message : ConfigError → String
  | .emptyNamespace => "namespace must not be empty"
  | .dogu entry e => "dogu entry " ++ Text.quote entry ++ ": " ++ e.message
  | .duplicateDogu name => "dogu " ++ name ++ " is listed more than once"
  | .defaultDogu name =>
    "default dogu " ++ Text.quote name ++ " is not among the dogus to install"
  | .component i => "component entry #" ++ toString i ++ ": name and version are required"
  | .patch i resource defect =>
    "resource patch #" ++ toString i ++ ": " ++ Patch.invalidMessage resource defect

end ConfigError

namespace Config

/-- The request that an entry of the install list makes. -/
def readEntry (entry : String) : Except ConfigError Dogu.Request :=
  match Dogu.Request.read entry with
  | .ok r => .ok r
  | .error e => .error (.dogu entry e)

/-- The requests of the install list, in order. -/
def requests (c : Config) : Except ConfigError (List Dogu.Request) :=
  c.dogus.install.mapM readEntry

/-- The first of some names that occurs a second time; `seen` holds the names before them. -/
def firstRepeated? (seen : List String) : List String → Option String
  | [] => none
  | n :: rest => if n ∈ seen then some n else firstRepeated? (n :: seen) rest

/-- The default dogu without surrounding blanks. -/
def defaultDogu (c : Config) : String :=
  Text.trim c.dogus.defaultDogu

/-- Whether a component has a name and a version. -/
def ComponentEntry.isNamed (c : ComponentEntry) : Bool :=
  !Text.isBlankText c.name && !Text.isBlankText c.version

/-- The first unsound patch. -/
def firstPatchError? (c : Config) : Option ConfigError :=
  c.patches.zipIdx.findSome? fun p => p.1.defect?.map (.patch p.2 p.1.resource)

/-- What is wrong with the parts of a configuration that do not depend on the requests. -/
def entryError? (c : Config) : Option ConfigError :=
  match c.components.findIdx? fun e => !e.isNamed with
  | some i => some (.component i)
  | none => firstPatchError? c

/-- What is wrong with a configuration whose requests have the given simple names. -/
def selectionError? (c : Config) (names : List String) : Option ConfigError :=
  match firstRepeated? [] names with
  | some n => some (.duplicateDogu n)
  | none =>
    if c.defaultDogu ≠ "" ∧ Dogu.simpleName c.defaultDogu ∉ names then
      some (.defaultDogu c.defaultDogu)
    else entryError? c

/-- Checks a configuration; the first error in the order of the checks counts. -/
def validate (c : Config) : Except ConfigError Unit :=
  if Text.isBlankText c.namespaceName then .error .emptyNamespace
  else
    match c.requests with
    | .error e => .error e
    | .ok requests =>
      match selectionError? c (requests.map Dogu.Request.simpleName) with
      | some e => .error e
      | none => .ok ()

end Config

end EcosystemSetup
