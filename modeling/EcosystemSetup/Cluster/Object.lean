import EcosystemSetup.Cluster.Collection
import EcosystemSetup.Document.Decode

/-!
# Objects of the cluster

An object has metadata and a body of its kind. The kinds that the cluster itself defines are read
leniently: every field may be missing or null, and of a repeated field the last one counts, but the
API version and the kind must be right where they are given. The resources of the operators are read
strictly, like the records of a configuration.
-/

namespace EcosystemSetup.Cluster

/-- A map from texts to texts, in key order. -/
abbrev TextMap := List (String × String)

/-- What every object carries. -/
structure Metadata where
  name : Option String := none
  generateName : Option String := none
  namespaceName : Option String := none
  labels : Option TextMap := none
  annotations : Option TextMap := none
  resourceVersion : Option String := none
  deriving DecidableEq, Repr, Inhabited

/-- The data of a config map. -/
structure ConfigMapBody where
  data : Option TextMap := none
  deriving DecidableEq, Repr, Inhabited

/-- The port that a service port forwards to: by number or by name. -/
inductive TargetPort where
  | number (n : Int)
  | name (s : String)
  deriving DecidableEq, Repr, Inhabited

/-- A port of a service. -/
structure ServicePort where
  name : Option String := none
  port : Int := 0
  targetPort : Option TargetPort := none
  protocol : Option String := none
  deriving DecidableEq, Repr, Inhabited

/-- What a service should be. -/
structure ServiceSpec where
  type : Option String := none
  selector : Option TextMap := none
  ports : Option (List ServicePort) := none
  deriving DecidableEq, Repr, Inhabited

/-- The body of a service. -/
structure ServiceBody where
  spec : Option ServiceSpec := none
  deriving DecidableEq, Repr, Inhabited

/-- A condition of a pod. -/
structure PodCondition where
  type : String := ""
  status : String := ""
  deriving DecidableEq, Repr, Inhabited

/-- The state of a pod. -/
structure PodStatus where
  phase : Option String := none
  reason : Option String := none
  message : Option String := none
  conditions : Option (List PodCondition) := none
  deriving DecidableEq, Repr, Inhabited

/-- The body of a pod. -/
structure PodBody where
  status : Option PodStatus := none
  deriving DecidableEq, Repr, Inhabited

/-- The state that an operator reports. -/
structure OperatorStatus where
  status : String := ""
  health : String := ""
  deriving DecidableEq, Repr, Inhabited

/-- The body of a dogu resource: the qualified name and the version to install. -/
structure DoguBody where
  name : String
  version : String
  status : Option OperatorStatus := none
  deriving DecidableEq, Repr, Inhabited

/-- The body of a component resource. -/
structure ComponentBody where
  name : String
  /-- The namespace of the chart in its repository. -/
  helmNamespace : String
  version : String
  deployNamespace : Option String := none
  status : Option OperatorStatus := none
  deriving DecidableEq, Repr, Inhabited

/-- The body of the objects of a collection. -/
@[reducible] def Collection.Body : Collection → Type
  | .namespaces => Unit
  | .configMaps => ConfigMapBody
  | .services => ServiceBody
  | .pods => PodBody
  | .dogus => DoguBody
  | .components => ComponentBody

instance (c : Collection) : DecidableEq c.Body :=
  match c with
  | .namespaces => inferInstanceAs (DecidableEq Unit)
  | .configMaps => inferInstanceAs (DecidableEq ConfigMapBody)
  | .services => inferInstanceAs (DecidableEq ServiceBody)
  | .pods => inferInstanceAs (DecidableEq PodBody)
  | .dogus => inferInstanceAs (DecidableEq DoguBody)
  | .components => inferInstanceAs (DecidableEq ComponentBody)

/-- An object of a collection. -/
structure Object (c : Collection) where
  metadata : Metadata
  body : c.Body
  deriving DecidableEq

namespace Object

/-- The name under which the cluster keeps an object. -/
def name {c : Collection} (o : Object c) : String :=
  (o.metadata.name.or o.metadata.generateName).getD ""

/-- The labels of an object. -/
def labels {c : Collection} (o : Object c) : TextMap :=
  o.metadata.labels.getD []

/-- The object at a version. -/
def atVersion {c : Collection} (o : Object c) (version : String) : Object c :=
  { o with metadata := { o.metadata with resourceVersion := some version } }

@[simp] theorem name_atVersion {c : Collection} (o : Object c) (v : String) :
    (o.atVersion v).name = o.name := rfl

@[simp] theorem labels_atVersion {c : Collection} (o : Object c) (v : String) :
    (o.atVersion v).labels = o.labels := rfl

end Object

end EcosystemSetup.Cluster
