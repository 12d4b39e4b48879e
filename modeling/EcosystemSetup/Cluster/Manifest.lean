import EcosystemSetup.Cluster.Object

/-!
# Manifests

Objects in their written form. Writing gives every object its API version and kind and leaves out
what is absent; reading undoes it.
-/

namespace EcosystemSetup.Cluster

/-! ## Reading -/

/-- The entries of a record that is read leniently. -/
def entries? : Document → Option (List (Option String × Document))
  | .record entries _ => if entries.all fun e => e.1.isSome then some entries else none
  | _ => none

/-- An optional field of a record that is read leniently: every entry of the key must decode, and the
last one counts. -/
def lastField {α : Type} (entries : List (Option String × Document)) (key : String)
    (decode : Document → Option α) : Option (Option α) :=
  let found := entries.filter fun e => e.1 == some key
  (found.mapM fun e => Document.optional? decode e.2).map fun values => values.getLast?.join

/-- A map from texts to texts. -/
def TextMap.decode (d : Document) : Option TextMap := do
  let entries ← d.textMap?
  return Assoc.ofList (← entries.mapM fun e => e.2.text?.map fun v => (e.1, v))

/-- Decodes metadata. -/
def Metadata.decode (d : Document) : Option Metadata := do
  let es ← entries? d
  let name ← lastField es "name" Document.text?
  let generateName ← lastField es "generateName" Document.text?
  let namespaceName ← lastField es "namespace" Document.text?
  let labels ← lastField es "labels" TextMap.decode
  let annotations ← lastField es "annotations" TextMap.decode
  let resourceVersion ← lastField es "resourceVersion" Document.text?
  return { name, generateName, namespaceName, labels, annotations, resourceVersion }

/-- Decodes the target of a port. -/
def TargetPort.decode (d : Document) : Option TargetPort :=
  (d.signed32?.map .number).or (d.text?.map .name)

/-- Decodes a port. -/
def ServicePort.decode (d : Document) : Option ServicePort := do
  let es ← entries? d
  let name ← lastField es "name" Document.text?
  let port ← lastField es "port" Document.signed32?
  let targetPort ← lastField es "targetPort" TargetPort.decode
  let protocol ← lastField es "protocol" Document.text?
  return { name, port := port.getD 0, targetPort, protocol }

/-- Decodes what a service should be. -/
def ServiceSpec.decode (d : Document) : Option ServiceSpec := do
  let es ← entries? d
  let type ← lastField es "type" Document.text?
  let selector ← lastField es "selector" TextMap.decode
  let ports ← lastField es "ports" (Document.list? ServicePort.decode)
  return { type, selector, ports }

/-- Decodes a condition. -/
def PodCondition.decode (d : Document) : Option PodCondition := do
  let es ← entries? d
  let type ← lastField es "type" Document.text?
  let status ← lastField es "status" Document.text?
  return { type := type.getD "", status := status.getD "" }

/-- Decodes the state of a pod. -/
def PodStatus.decode (d : Document) : Option PodStatus := do
  let es ← entries? d
  let phase ← lastField es "phase" Document.text?
  let reason ← lastField es "reason" Document.text?
  let message ← lastField es "message" Document.text?
  let conditions ← lastField es "conditions" (Document.list? PodCondition.decode)
  return { phase, reason, message, conditions }

/-- Decodes the state that an operator reports. -/
def OperatorStatus.decode (d : Document) : Option OperatorStatus := do
  let fs ← d.fields? ["status", "health"]
  let status ← fs.defaulted "status" "" Document.text?
  let health ← fs.defaulted "health" "" Document.text?
  return { status, health }

/-- Decodes an object that is read leniently: its API version and kind must be right where given. -/
def decodeLenient (c : Collection) (d : Document)
    (body : List (Option String × Document) → Option c.Body) : Option (Object c) := do
  let es ← entries? d
  let fits (key expected : String) : Bool :=
    (es.filter fun e => e.1 == some key).all fun e => e.2.text? == some expected
  guard (fits "apiVersion" c.apiVersion && fits "kind" c.kind)
  let metadata ← lastField es "metadata" Metadata.decode
  return { metadata := metadata.getD {}, body := ← body es }

/-- Decodes an operator's resource, whose metadata and specification must be given. -/
def decodeResource (c : Collection) (d : Document)
    (body : Document → Option OperatorStatus → Option c.Body) : Option (Object c) := do
  let fs ← d.fields? ["metadata", "spec", "status"]
  let metadata ← fs.required "metadata" Metadata.decode
  let spec ← fs.find "spec"
  let status ← fs.optionalInRecord "status" OperatorStatus.decode
  return { metadata, body := ← body spec status }

/-- Decodes an object. -/
def Object.decode : (c : Collection) → Document → Option (Object c)
  | .namespaces, d => decodeLenient .namespaces d fun _ => some ()
  | .configMaps, d =>
    decodeLenient .configMaps d fun es => do
      return { data := ← lastField es "data" TextMap.decode }
  | .services, d =>
    decodeLenient .services d fun es => do
      return { spec := ← lastField es "spec" ServiceSpec.decode }
  | .pods, d =>
    decodeLenient .pods d fun es => do
      return { status := ← lastField es "status" PodStatus.decode }
  | .dogus, d =>
    decodeResource .dogus d fun spec status => do
      let fs ← spec.fields? ["name", "version"]
      let name ← fs.required "name" Document.text?
      let version ← fs.required "version" Document.text?
      return { name, version, status }
  | .components, d =>
    decodeResource .components d fun spec status => do
      let fs ← spec.fields? ["name", "namespace", "version", "deployNamespace"]
      let name ← fs.required "name" Document.text?
      let helmNamespace ← fs.required "namespace" Document.text?
      let version ← fs.required "version" Document.text?
      let deployNamespace ← fs.optional "deployNamespace" Document.text?
      return { name, helmNamespace, version, deployNamespace, status }

/-! ## Writing -/

/-- A field that is left out if absent. -/
def present {α : Type} (key : String) (value : Option α) (encode : α → Json) :
    List (String × Json) :=
  (value.map fun v => (key, encode v)).toList

/-- Encodes a map from texts to texts. -/
def TextMap.encode (m : TextMap) : Json :=
  .record (m.map fun e => (e.1, .text e.2))

/-- Encodes metadata. -/
def Metadata.encode (m : Metadata) : Json :=
  .record <|
    present "annotations" m.annotations TextMap.encode ++
      present "generateName" m.generateName .text ++
      present "labels" m.labels TextMap.encode ++
      present "name" m.name .text ++
      present "namespace" m.namespaceName .text ++
      present "resourceVersion" m.resourceVersion .text

/-- Encodes the target of a port. -/
def TargetPort.encode : TargetPort → Json
  | .number n => Json.ofInt n
  | .name s => .text s

/-- Encodes a port. -/
def ServicePort.encode (p : ServicePort) : Json :=
  .record <|
    present "name" p.name .text ++ [("port", Json.ofInt p.port)] ++
      present "protocol" p.protocol .text ++ present "targetPort" p.targetPort TargetPort.encode

/-- Encodes what a service should be. -/
def ServiceSpec.encode (s : ServiceSpec) : Json :=
  .record <|
    present "ports" s.ports (fun ps => .list (ps.map ServicePort.encode)) ++
      present "selector" s.selector TextMap.encode ++ present "type" s.type .text

/-- Encodes a condition. -/
def PodCondition.encode (c : PodCondition) : Json :=
  .record [("status", .text c.status), ("type", .text c.type)]

/-- Encodes the state of a pod. -/
def PodStatus.encode (s : PodStatus) : Json :=
  .record <|
    present "conditions" s.conditions (fun cs => .list (cs.map PodCondition.encode)) ++
      present "message" s.message .text ++ present "phase" s.phase .text ++
      present "reason" s.reason .text

/-- Encodes the state that an operator reports. -/
def OperatorStatus.encode (s : OperatorStatus) : Json :=
  .record [("health", .text s.health), ("status", .text s.status)]

/-- The fields of a body before the common ones, and those after them, in key order. -/
def bodyFields : (c : Collection) → c.Body → List (String × Json) × List (String × Json)
  | .namespaces, _ => ([], [])
  | .configMaps, b => (present "data" b.data TextMap.encode, [])
  | .services, b => ([], present "spec" b.spec ServiceSpec.encode)
  | .pods, b => ([], present "status" b.status PodStatus.encode)
  | .dogus, b =>
    ([], [("spec", .record [("name", .text b.name), ("version", .text b.version)])] ++
      present "status" b.status OperatorStatus.encode)
  | .components, b =>
    ([], [("spec", .record <|
        present "deployNamespace" b.deployNamespace .text ++
          [("name", .text b.name), ("namespace", .text b.helmNamespace),
            ("version", .text b.version)])] ++
      present "status" b.status OperatorStatus.encode)

/-- Encodes an object. -/
def Object.encode {c : Collection} (o : Object c) : Json :=
  let (before, after) := bodyFields c o.body
  .record <|
    [("apiVersion", .text c.apiVersion)] ++ before ++
      [("kind", .text c.kind), ("metadata", o.metadata.encode)] ++ after

end EcosystemSetup.Cluster
