import EcosystemSetup.Document.Decode
import EcosystemSetup.Dogu.Name

/-!
# Dogu descriptors

The description of an installable dogu: its name and version, the dogus, clients and packages it
depends on, and the service accounts it needs from other dogus or platform components. Each type
comes with its decoder and its encoder; lists that are empty, an empty dependency version and an
account that is not optional are left out of the encoded form.
-/

namespace EcosystemSetup.Dogu

/-- What a dependency refers to. -/
inductive DependencyType where
  | dogu
  | client
  | package
  deriving DecidableEq, Repr, Inhabited

/-- The name of a dependency type. -/
def DependencyType.name : DependencyType → String
  | .dogu => "dogu"
  | .client => "client"
  | .package => "package"

/-- The dependency type of a name; an empty name is a dogu. -/
def DependencyType.ofName? : String → Option DependencyType
  | "dogu" => some .dogu
  | "" => some .dogu
  | "client" => some .client
  | "package" => some .package
  | _ => none

/-- A dependency, by simple name. -/
structure Dependency where
  type : DependencyType := .dogu
  name : String
  version : String := ""
  deriving DecidableEq, Repr, Inhabited

/-- Who provides the credentials of a service account. -/
inductive AccountKind where
  | dogu
  | component
  | unknown (name : String)
  deriving DecidableEq, Repr, Inhabited

/-- The name of an account kind. -/
def AccountKind.name : AccountKind → String
  | .dogu => "dogu"
  | .component => "component"
  | .unknown s => s

/-- The account kind of a name: no name means a dogu, and `k8s` means a component. -/
def AccountKind.ofName (s : String) : AccountKind :=
  if s = "" ∨ s = "dogu" then .dogu
  else if s = "component" ∨ s = "k8s" then .component
  else .unknown s

/-- A service account that a dogu needs. -/
structure ServiceAccount where
  /-- The name of the providing dogu or component. -/
  target : String
  kind : AccountKind := .dogu
  optional : Bool := false
  deriving DecidableEq, Repr, Inhabited

/-- The description of an installable dogu. -/
structure Descriptor where
  /-- The qualified name. -/
  name : String
  version : String
  dependencies : List Dependency := []
  optionalDependencies : List Dependency := []
  serviceAccounts : List ServiceAccount := []
  deriving DecidableEq, Repr, Inhabited

namespace Descriptor

/-- The simple name of the described dogu. -/
def simpleName (d : Descriptor) : String :=
  Dogu.simpleName d.name

/-- The namespace of the described dogu. -/
def namespaceName (d : Descriptor) : String :=
  namespaceOf d.name

/-- The simple names of the dogus it depends on, required ones first. -/
def doguDependencies (d : Descriptor) : List String :=
  ((d.dependencies ++ d.optionalDependencies).filter fun x => x.type = .dogu).map Dependency.name

/-- An account is optional if it says so or if its provider is an optional dependency. -/
def isOptionalAccount (d : Descriptor) (a : ServiceAccount) : Bool :=
  a.optional || d.optionalDependencies.any fun x => x.name == a.target

end Descriptor

/-! ## Decoding -/

/-- Decodes a dependency type. -/
def DependencyType.decode (d : Document) : Option DependencyType :=
  d.variant?.bind ofName?

/-- Decodes a dependency. -/
def Dependency.decode (d : Document) : Option Dependency := do
  let fs ← d.fields? ["Type", "Name", "Version"]
  let type ← fs.defaulted "Type" .dogu DependencyType.decode
  let name ← fs.required "Name" Document.text?
  let version ← fs.defaulted "Version" "" Document.text?
  return { type, name, version }

/-- Decodes an account kind. -/
def AccountKind.decode (d : Document) : Option AccountKind :=
  d.text?.map ofName

/-- Decodes a service account. -/
def ServiceAccount.decode (d : Document) : Option ServiceAccount := do
  let fs ← d.fields? ["Type", "Kind", "Optional"]
  let target ← fs.required "Type" Document.text?
  let kind ← fs.defaulted "Kind" .dogu AccountKind.decode
  let optional ← fs.defaulted "Optional" false Document.flag?
  return { target, kind, optional }

/-- Decodes a descriptor. -/
def Descriptor.decode (d : Document) : Option Descriptor := do
  let fs ← d.fields?
    ["Name", "Version", "Dependencies", "OptionalDependencies", "ServiceAccounts"]
  let name ← fs.required "Name" Document.text?
  let version ← fs.required "Version" Document.text?
  let dependencies ← fs.defaulted "Dependencies" [] (Document.list? Dependency.decode)
  let optionalDependencies ←
    fs.defaulted "OptionalDependencies" [] (Document.list? Dependency.decode)
  let serviceAccounts ← fs.defaulted "ServiceAccounts" [] (Document.list? ServiceAccount.decode)
  return { name, version, dependencies, optionalDependencies, serviceAccounts }

/-! ## Encoding -/

/-- A field of an encoded record, left out when `skip` holds. -/
def fieldUnless (skip : Bool) (name : String) (value : Json) : List (String × Json) :=
  if skip then [] else [(name, value)]

/-- Encodes a dependency. -/
def Dependency.encode (d : Dependency) : Json :=
  Json.ofFields <|
    [("Type", .text d.type.name), ("Name", .text d.name)] ++
      fieldUnless (d.version == "") "Version" (.text d.version)

/-- Encodes a service account. -/
def ServiceAccount.encode (a : ServiceAccount) : Json :=
  Json.ofFields <|
    [("Type", .text a.target), ("Kind", .text a.kind.name)] ++
      fieldUnless (!a.optional) "Optional" (.bool a.optional)

/-- Encodes a descriptor. -/
def Descriptor.encode (d : Descriptor) : Json :=
  Json.ofFields <|
    [("Name", .text d.name), ("Version", .text d.version)] ++
      fieldUnless d.dependencies.isEmpty "Dependencies"
        (.list (d.dependencies.map Dependency.encode)) ++
      fieldUnless d.optionalDependencies.isEmpty "OptionalDependencies"
        (.list (d.optionalDependencies.map Dependency.encode)) ++
      fieldUnless d.serviceAccounts.isEmpty "ServiceAccounts"
        (.list (d.serviceAccounts.map ServiceAccount.encode))

end EcosystemSetup.Dogu
