import EcosystemSetup.Dogu.Descriptor
import EcosystemSetup.Dogu.Version

/-!
# Registries

A registry answers two questions about a dogu: its descriptor in a given version, and its descriptor
in the latest version. Descriptors whose version text denotes no version are never the latest.
-/

namespace EcosystemSetup

open Dogu

/-- Why a registry has no descriptor to give. -/
inductive RegistryError where
  | notFound (name : String)
  | versionNotFound (name version : String)
  | unreadable (path cause : String)
  /-- The file holds no descriptor. -/
  | malformed (path : String)
  | mismatch (path expected found : String)
  deriving DecidableEq, Repr

/-- The wording of a registry error. -/
def RegistryError.message : RegistryError → String
  | .notFound name => "dogu " ++ name ++ " not found in registry"
  | .versionNotFound name version => "dogu " ++ name ++ " has no version " ++ version
  | .unreadable path cause => "reading " ++ path ++ ": " ++ cause
  | .malformed path => "parsing descriptor " ++ path
  | .mismatch path expected found =>
    "descriptor " ++ path ++ " declares " ++ found ++ ", expected " ++ expected

/-- The answers of a registry. -/
structure Registry where
  /-- The descriptor of a dogu in its latest version. -/
  latest : String → Except RegistryError Descriptor
  /-- The descriptor of a dogu in a given version. -/
  get : String → String → Except RegistryError Descriptor

namespace Registry

/-- The better of the best text so far and a new one: the new one if its rank is at least as high.
A text that denotes no version never wins. -/
def better (best : Option (Version × String)) (text : String) : Option (Version × String) :=
  match Version.read? text, best with
  | none, _ => best
  | some v, none => some (v, text)
  | some v, some b => if b.1.compare v = .gt then best else some (v, text)

/-- The text of highest rank, the last one among equals. -/
def latestText (texts : List String) : Option String :=
  (texts.foldl better none).map Prod.snd

/-- Whether two texts denote the same version; texts that denote none are the same if equal. -/
def sameVersion (a b : String) : Bool :=
  match Version.read? a, Version.read? b with
  | some x, some y => x = y
  | _, _ => a = b

end Registry

end EcosystemSetup
