import EcosystemSetup.Dogu.Request
import EcosystemSetup.Patch.Directive
import EcosystemSetup.Wait.Settings

/-!
# Setup configurations

What a setup installs and where: the namespace, the dogus, the components, the load balancer, patches
of resources and the timing of waits. Sections may be missing; a configuration encodes every section
with its defaults filled in, and leaves out absent options.
-/

namespace EcosystemSetup

namespace Config

/-- The dogus to install. -/
structure DoguSelection where
  /-- The simple or qualified name of the dogu that users land on. -/
  defaultDogu : String := ""
  /-- Requests for dogus, as texts. -/
  install : List String := []
  deriving DecidableEq, Repr, Inhabited

/-- A component to install. -/
structure ComponentEntry where
  name : String
  version : String
  /-- The namespace of the chart in its repository. -/
  helmNamespace : String := "k8s"
  /-- The namespace to deploy to, where it is not the setup's own. -/
  deployNamespace : Option String := none
  deriving DecidableEq, Repr, Inhabited

/-- The load balancer in front of the dogus. -/
structure Loadbalancer where
  enabled : Bool := false
  ports : List Int := [80, 443]
  /-- The dogu whose pods receive the traffic. -/
  targetDogu : String := "nginx-ingress"
  deriving DecidableEq, Repr, Inhabited

end Config

/-- A setup configuration. -/
structure Config where
  namespaceName : String
  dogus : Config.DoguSelection := {}
  components : List Config.ComponentEntry := []
  loadbalancer : Config.Loadbalancer := {}
  patches : List Patch.Directive := []
  /-- The directory of dogu descriptors. -/
  registryDir : Option String := none
  wait : Wait.Overrides := {}
  deriving BEq, Repr, Inhabited

namespace Config

/-! ## Decoding -/

/-- Decodes the dogus to install. -/
def DoguSelection.decode (d : Document) : Option DoguSelection := do
  let fs ← d.fields? ["defaultDogu", "install"]
  let defaultDogu ← fs.defaulted "defaultDogu" "" Document.text?
  let install ← fs.defaulted "install" [] (Document.list? Document.text?)
  return { defaultDogu, install }

/-- Decodes a component. -/
def ComponentEntry.decode (d : Document) : Option ComponentEntry := do
  let fs ← d.fields? ["name", "version", "helmNamespace", "deployNamespace"]
  let name ← fs.required "name" Document.text?
  let version ← fs.required "version" Document.text?
  let helmNamespace ← fs.defaulted "helmNamespace" "k8s" Document.text?
  let deployNamespace ← fs.optional "deployNamespace" Document.text?
  return { name, version, helmNamespace, deployNamespace }

/-- Decodes the load balancer. -/
def Loadbalancer.decode (d : Document) : Option Loadbalancer := do
  let fs ← d.fields? ["enabled", "ports", "targetDogu"]
  let enabled ← fs.defaulted "enabled" false Document.flag?
  let ports ← fs.defaulted "ports" [80, 443] (Document.list? Document.signed32?)
  let targetDogu ← fs.defaulted "targetDogu" "nginx-ingress" Document.text?
  return { enabled, ports, targetDogu }

/-- Decodes the overrides of the timing. -/
def decodeWait (d : Document) : Option Wait.Overrides := do
  let fs ← d.fields? ["timeoutSecs", "maxReadAttempts"]
  let timeoutSecs ← fs.optional "timeoutSecs" (Document.unsigned? Text.bound64)
  let maxReadAttempts ← fs.optional "maxReadAttempts" (Document.unsigned? Text.bound32)
  return { timeoutSecs, maxReadAttempts }

/-- Decodes a configuration. -/
def decode (d : Document) : Option Config := do
  let fs ← d.fields? ["namespace", "dogus", "components", "loadbalancer", "resourcePatches",
    "registryDir", "wait"]
  let namespaceName ← fs.required "namespace" Document.text?
  let dogus ← fs.defaulted "dogus" {} DoguSelection.decode
  let components ← fs.defaulted "components" [] (Document.list? ComponentEntry.decode)
  let loadbalancer ← fs.defaulted "loadbalancer" {} Loadbalancer.decode
  let patches ← fs.defaulted "resourcePatches" [] (Document.list? Patch.Directive.decode)
  let registryDir ← fs.optional "registryDir" Document.text?
  let wait ← fs.defaulted "wait" {} decodeWait
  return { namespaceName, dogus, components, loadbalancer, patches, registryDir, wait }

/-! ## Encoding -/

/-- The field of an option: left out if absent. -/
def optionField (key : String) (value : Option Json) : List (String × Json) :=
  (value.map fun v => (key, v)).toList

/-- Encodes the dogus to install. -/
def DoguSelection.encode (s : DoguSelection) : Json :=
  .record [("defaultDogu", .text s.defaultDogu), ("install", Json.ofTexts s.install)]

/-- Encodes a component. -/
def ComponentEntry.encode (c : ComponentEntry) : Json :=
  .record <|
    optionField "deployNamespace" (c.deployNamespace.map .text) ++
      [("helmNamespace", .text c.helmNamespace), ("name", .text c.name),
        ("version", .text c.version)]

/-- Encodes the load balancer. -/
def Loadbalancer.encode (l : Loadbalancer) : Json :=
  .record [("enabled", .bool l.enabled), ("ports", .list (l.ports.map Json.ofInt)),
    ("targetDogu", .text l.targetDogu)]

/-- Encodes the overrides of the timing. -/
def encodeWait (o : Wait.Overrides) : Json :=
  .record <|
    optionField "maxReadAttempts" (o.maxReadAttempts.map Json.ofNat) ++
      optionField "timeoutSecs" (o.timeoutSecs.map Json.ofNat)

/-- Encodes a configuration. -/
def encode (c : Config) : Json :=
  .record <|
    [("components", .list (c.components.map ComponentEntry.encode)), ("dogus", c.dogus.encode),
      ("loadbalancer", c.loadbalancer.encode), ("namespace", .text c.namespaceName)] ++
      optionField "registryDir" (c.registryDir.map .text) ++
      [("resourcePatches", .list (c.patches.map Patch.Directive.encode)),
        ("wait", encodeWait c.wait)]

/-- The names of the configured components. -/
def componentNames (c : Config) : List String :=
  c.components.map ComponentEntry.name

end Config

end EcosystemSetup
