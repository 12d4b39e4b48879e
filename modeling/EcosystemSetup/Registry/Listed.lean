import EcosystemSetup.Registry.Basic

/-!
# Registries given as a list

All descriptors are at hand, in the order in which they were added.
-/

namespace EcosystemSetup.Registry

open Dogu

/-- The descriptors of a dogu, oldest first. -/
def versionsOf (descriptors : List Descriptor) (name : String) : List Descriptor :=
  descriptors.filter fun d => d.name = name

/-- The first descriptor added in the given version. -/
def getListed (descriptors : List Descriptor) (name version : String) :
    Except RegistryError Descriptor :=
  match (versionsOf descriptors name).find? fun d => sameVersion d.version version with
  | some d => .ok d
  | none => .error (.versionNotFound name version)

/-- The descriptor of the latest version. -/
def latestListed (descriptors : List Descriptor) (name : String) :
    Except RegistryError Descriptor :=
  match latestText ((versionsOf descriptors name).map Descriptor.version) with
  | some version => getListed descriptors name version
  | none => .error (.notFound name)

/-- The registry of a list of descriptors. -/
def ofList (descriptors : List Descriptor) : Registry where
  latest := latestListed descriptors
  get := getListed descriptors

end EcosystemSetup.Registry
