import EcosystemSetup.Cluster.KindName

/-!
# Collections

The six kinds of object that a setup reads and writes, each in one collection of the cluster.
-/

namespace EcosystemSetup.Cluster

/-- A kind of object that a setup works with. -/
inductive Collection where
  | namespaces
  | configMaps
  | services
  | pods
  | dogus
  | components
  deriving DecidableEq, Repr, Inhabited

namespace Collection

/-- All collections. -/
def all : List Collection :=
  [.namespaces, .configMaps, .services, .pods, .dogus, .components]

/-- The name of the kind. -/
def kind : Collection → String
  | .namespaces => "Namespace"
  | .configMaps => "ConfigMap"
  | .services => "Service"
  | .pods => "Pod"
  | .dogus => "Dogu"
  | .components => "Component"

/-- The group and version of the kind. -/
def apiVersion : Collection → String
  | .dogus => "k8s.cloudogu.com/v2"
  | .components => "k8s.cloudogu.com/v1"
  | _ => "v1"

/-- The name of the collection in paths. -/
def plural : Collection → String
  | .namespaces => "namespaces"
  | .configMaps => "configmaps"
  | .services => "services"
  | .pods => "pods"
  | .dogus => "dogus"
  | .components => "components"

/-- Whether the objects live in a namespace. -/
def namespaced (c : Collection) : Bool :=
  c ≠ .namespaces

/-- The kind as the cluster serves it. -/
def served (c : Collection) : ServedKind :=
  ⟨.ofApiVersion c.apiVersion c.kind, c.apiVersion, c.plural, c.namespaced⟩

/-- The collection of a kind. -/
def ofKind? (kind : String) : Option Collection :=
  all.find? fun c => c.kind == kind

end Collection

end EcosystemSetup.Cluster
